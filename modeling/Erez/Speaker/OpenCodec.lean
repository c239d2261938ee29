import Erez.Speaker.Announcement
import Erez.Speaker.CapabilityCodec

/-! # OPEN messages on the wire

The parameters of an OPEN are behind one length octet, and the capabilities of a parameter
behind another. Neither is checked when it is written.
-/

namespace Erez.Speaker

open Daemon Erez.Lib ByteParser

/-! ## Decoding -/

/-- A capability of the usual form, whatever its value is. -/
def skipCapability : ByteParser BgpParameterParsingError Unit := do
  let _ ← beU8 (.nomError .eof)
  let _ ← countU8 (.nomError .eof)
  pure ()

/-- One round of the loop of `parse_capability_param`: a capability, or one that is ignored
    with its error. -/
def capabilityFromWire (failOnCapabilityError : Bool) :
    ByteParser BgpParameterParsingError (Except BgpCapabilityParsingError BgpCapability) :=
  fun buf =>
    match BgpCapability.fromWire buf with
    | .ok (capability, rest) => .ok (.ok capability, rest)
    | .error (.incomplete needed) => .error (.incomplete needed)
    | .error (.error error) =>
        if failOnCapabilityError then .error (.error (.capabilityError error))
        else ((fun _ => .error error) <$> skipCapability) buf

def capability? : Except BgpCapabilityParsingError BgpCapability → Option BgpCapability
  | .ok capability => some capability
  | .error _ => none

def ignored? : Except BgpCapabilityParsingError BgpCapability → Option BgpCapabilityParsingError
  | .ok _ => none
  | .error error => some error

/-- The loop of `parse_capability_param`, with the errors that it adds to those ignored. -/
def capabilitiesFromWire (failOnCapabilityError : Bool) :
    ByteParser BgpParameterParsingError
      (BgpOpenMessageParameter × List BgpCapabilityParsingError) := do
  let capabilities ← tillEmpty (capabilityFromWire failOnCapabilityError)
  pure (.capabilities (capabilities.filterMap capability?), capabilities.filterMap ignored?)

def parseCapabilityParam (failOnCapabilityError : Bool) :
    ByteParser BgpParameterParsingError
      (BgpOpenMessageParameter × List BgpCapabilityParsingError) := do
  let capabilitiesBuf ← lengthU8 (.nomError .eof)
  within capabilitiesBuf (capabilitiesFromWire failOnCapabilityError)

def BgpOpenMessageParameter.fromWire (failOnCapabilityError : Bool) :
    ByteParser BgpParameterParsingError
      (BgpOpenMessageParameter × List BgpCapabilityParsingError) := do
  let paramType ← beU8 (.nomError .eof)
  -- The extended length has a code, and is not supported all the same.
  if paramType = 2 then parseCapabilityParam failOnCapabilityError
  else fail (.undefinedParameterType paramType)

namespace BgpOpenMessage

def versionFromWire : ByteParser BgpOpenMessageParsingError Unit := do
  let version ← beU8 (.nomError .eof)
  if version = 4 then pure () else fail (.unsupportedVersionNumber version)

def holdTimeFromWire : ByteParser BgpOpenMessageParsingError UInt16 := do
  let holdTime ← beU16 (.nomError .eof)
  if holdTime = 1 ∨ holdTime = 2 then fail (.unacceptableHoldTime holdTime) else pure holdTime

/-- Not the address of a host. -/
def InvalidBgpId (bgpId : Ipv4Addr) : Prop :=
  bgpId.isBroadcast = true ∨ bgpId.isMulticast = true ∨ bgpId = .new 0 0 0 0

instance (bgpId : Ipv4Addr) : Decidable (InvalidBgpId bgpId) :=
  inferInstanceAs (Decidable (_ ∨ _ ∨ _))

def bgpIdFromWire : ByteParser BgpOpenMessageParsingError Ipv4Addr := do
  let bgpId ← ipv4Addr (.nomError .eof)
  if InvalidBgpId bgpId then fail (.invalidBgpId bgpId) else pure bgpId

def paramsFromWire (failOnCapabilityError : Bool) :
    ByteParser BgpOpenMessageParsingError
      (List (BgpOpenMessageParameter × List BgpCapabilityParsingError)) := do
  let paramsBuf ← lengthU8 (.nomError .eof)
  within paramsBuf <|
    tillEmpty ((BgpOpenMessageParameter.fromWire failOnCapabilityError).mapErr .parameterError)

def fromWire (failOnCapabilityError : Bool) :
    ByteParser BgpOpenMessageParsingError (BgpOpenMessage × List BgpCapabilityParsingError) := do
  versionFromWire
  let myAs ← beU16 (.nomError .eof)
  let holdTime ← holdTimeFromWire
  let bgpId ← bgpIdFromWire
  let params ← paramsFromWire failOnCapabilityError
  pure (⟨myAs, holdTime, bgpId, params.map Prod.fst⟩, params.flatMap Prod.snd)

end BgpOpenMessage

/-! ## Encoding -/

namespace BgpOpenMessageParameter

def len : BgpOpenMessageParameter → ℕ
  | capabilities values => 2 + (values.map BgpCapability.len).sum

def write (param : BgpOpenMessageParameter) : List UInt8 :=
  let length := param.len - 2
  match param with
  | capabilities values => [2, length.toUInt8] ++ values.flatMap BgpCapability.write

end BgpOpenMessageParameter

namespace BgpOpenMessage

def paramsLen (message : BgpOpenMessage) : ℕ :=
  (message.params.map BgpOpenMessageParameter.len).sum

def len (message : BgpOpenMessage) : ℕ :=
  10 + message.paramsLen

def write (message : BgpOpenMessage) : List UInt8 :=
  4 :: (toBigEndian 2 message.myAs.toNat ++ (toBigEndian 2 message.holdTime.toNat ++
    (message.bgpId.octets.toList ++ (message.paramsLen.toUInt8 ::
      message.params.flatMap BgpOpenMessageParameter.write))))

end BgpOpenMessage

/-! ## Parameters -/

theorem skipCapability_consumes : Consumes 2 skipCapability :=
  .bind (k := 1) (.beU8 _) fun _ => .bind (k := 0) (.countU8 _) fun _ => .pure ()

theorem capabilityFromWire_consumes (failOnCapabilityError : Bool) :
    Consumes 1 (capabilityFromWire failOnCapabilityError) := by
  intro buf value rest parsed
  unfold capabilityFromWire at parsed
  split at parsed
  · rename_i capability left read
    obtain ⟨-, rfl⟩ := Prod.mk.inj (Except.ok.inj parsed)
    exact BgpCapability.fromWire_consumes _ _ _ read
  · cases parsed
  · split at parsed
    · cases parsed
    · have skipped := skipCapability_consumes.map _ _ _ _ parsed
      omega

theorem capabilityFromWire_reads (failOnCapabilityError : Bool) {capability : BgpCapability}
    (readable : capability.Readable) :
    Reads (capabilityFromWire failOnCapabilityError) capability.write
      (.ok capability.received) := by
  intro rest
  rw [capabilityFromWire, BgpCapability.fromWire_reads readable]

theorem filterMap_capability? {α : Type} (f : α → BgpCapability) (values : List α) :
    (values.map fun value => .ok (f value)).filterMap capability? = values.map f := by
  rw [List.filterMap_map]
  exact congrFun (List.filterMap_eq_map (f := f)) values

theorem filterMap_ignored? {α : Type} (f : α → BgpCapability) (values : List α) :
    (values.map fun value => .ok (f value)).filterMap ignored? = [] := by
  rw [List.filterMap_map]
  exact List.filterMap_eq_nil_iff.mpr fun _ _ => rfl

theorem capabilitiesFromWire_flatMap (failOnCapabilityError : Bool) {values : List BgpCapability}
    (readable : ∀ capability ∈ values, capability.Readable) :
    capabilitiesFromWire failOnCapabilityError (values.flatMap BgpCapability.write) =
      .ok ((.capabilities (values.map BgpCapability.received), []), []) := by
  have looped := tillEmpty_flatMap_map (capabilityFromWire_consumes failOnCapabilityError)
    fun capability member => capabilityFromWire_reads failOnCapabilityError
      (readable capability member)
  rw [capabilitiesFromWire, bind_of_ok looped, filterMap_capability?, filterMap_ignored?]
  rfl

namespace BgpOpenMessageParameter

def Readable : BgpOpenMessageParameter → Prop
  | capabilities values => ∀ capability ∈ values, capability.Readable

def received : BgpOpenMessageParameter → BgpOpenMessageParameter
  | capabilities values => capabilities (values.map BgpCapability.received)

theorem length_flatMap_write {values : List BgpCapability}
    (readable : ∀ capability ∈ values, capability.Readable) :
    (values.flatMap BgpCapability.write).length = (values.map BgpCapability.len).sum := by
  rw [List.length_flatMap]
  refine congrArg List.sum (List.map_congr_left fun capability member => ?_)
  exact BgpCapability.length_write_of_readable (readable capability member)

theorem length_write {param : BgpOpenMessageParameter} (readable : param.Readable) :
    param.write.length = param.len := by
  obtain ⟨values⟩ := param
  simp only [write, len, List.length_append, length_flatMap_write readable, List.length_cons,
    List.length_nil]

theorem fromWire_reads (failOnCapabilityError : Bool) {param : BgpOpenMessageParameter}
    (readable : param.Readable) (short : param.len < 258) :
    Reads (fromWire failOnCapabilityError) param.write (param.received, []) := by
  obtain ⟨values⟩ := param
  have size := length_flatMap_write readable
  have same : len (capabilities values) - 2 = (values.flatMap BgpCapability.write).length := by
    rw [size, len, Nat.add_sub_cancel_left]
  refine .beU8_bind _ 2 ?_
  change Reads (parseCapabilityParam failOnCapabilityError)
    ((len (capabilities values) - 2).toUInt8 :: values.flatMap BgpCapability.write) _
  rw [same]
  exact .lengthU8_within _ (by omega)
    (capabilitiesFromWire_flatMap failOnCapabilityError readable)

theorem fromWire_consumes (failOnCapabilityError : Bool) :
    Consumes 1 (fromWire failOnCapabilityError) := by
  refine .bind (k := 0) (.beU8 _) fun paramType => ?_
  split
  · exact (Consumes.bind (k := 0) (.lengthU8 _) fun buf => .within buf _).mono (Nat.zero_le _)
  · exact .fail 0 _

end BgpOpenMessageParameter

/-! ## Messages -/

namespace BgpOpenMessage

/-- The fields are none of those that are rejected. -/
structure Acceptable (message : BgpOpenMessage) : Prop where
  holdTime : ¬ (message.holdTime = 1 ∨ message.holdTime = 2)
  bgpId : ¬ InvalidBgpId message.bgpId
  readable : ∀ param ∈ message.params, param.Readable

def received (message : BgpOpenMessage) : BgpOpenMessage :=
  { message with params := message.params.map BgpOpenMessageParameter.received }

theorem len_le_paramsLen {message : BgpOpenMessage} {param : BgpOpenMessageParameter}
    (member : param ∈ message.params) : param.len ≤ message.paramsLen :=
  List.single_le_sum (fun _ _ => Nat.zero_le _) _ (List.mem_map_of_mem member)

theorem length_params {message : BgpOpenMessage}
    (readable : ∀ param ∈ message.params, param.Readable) :
    (message.params.flatMap BgpOpenMessageParameter.write).length = message.paramsLen := by
  rw [List.length_flatMap]
  refine congrArg List.sum (List.map_congr_left fun param member => ?_)
  exact BgpOpenMessageParameter.length_write (readable param member)

theorem paramsFromWire_reads (failOnCapabilityError : Bool) {message : BgpOpenMessage}
    (readable : ∀ param ∈ message.params, param.Readable) (short : message.paramsLen < 256) :
    Reads (paramsFromWire failOnCapabilityError)
      (message.paramsLen.toUInt8 :: message.params.flatMap BgpOpenMessageParameter.write)
      (message.params.map fun param => (param.received, [])) := by
  have size := length_params readable
  rw [← size]
  refine .lengthU8_within _ (by omega) <|
    tillEmpty_flatMap_map ((BgpOpenMessageParameter.fromWire_consumes _).mapErr _) ?_
  intro param member
  have bound := len_le_paramsLen member
  exact (BgpOpenMessageParameter.fromWire_reads failOnCapabilityError (readable param member)
    (by omega)).mapErr _

/-- Past 255 octets the length octet is too small, and some of the parameters are left. -/
theorem paramsFromWire_leaves {failOnCapabilityError : Bool} {message : BgpOpenMessage}
    (readable : ∀ param ∈ message.params, param.Readable) (long : 256 ≤ message.paramsLen)
    {params : List (BgpOpenMessageParameter × List BgpCapabilityParsingError)} {rest : List UInt8}
    (parsed : paramsFromWire failOnCapabilityError
      (message.paramsLen.toUInt8 :: message.params.flatMap BgpOpenMessageParameter.write) =
        .ok (params, rest)) :
    rest ≠ [] := by
  obtain ⟨paramsBuf, left, parted, parsed⟩ := ok_of_bind parsed
  have size := length_params readable
  have octet : (message.paramsLen.toUInt8).toNat < 256 := UInt8.toNat_lt _
  rw [lengthU8_cons, if_pos (by omega)] at parted
  obtain ⟨-, rfl⟩ := Prod.mk.inj (Except.ok.inj parted)
  obtain rfl := rest_of_within parsed
  rw [Ne, List.drop_eq_nil_iff]
  omega

/-- The fields in front of the parameters. -/
def header (message : BgpOpenMessage) : List UInt8 :=
  4 :: (toBigEndian 2 message.myAs.toNat ++ (toBigEndian 2 message.holdTime.toNat ++
    message.bgpId.octets.toList))

theorem write_eq (message : BgpOpenMessage) :
    message.write = message.header ++
      (message.paramsLen.toUInt8 :: message.params.flatMap BgpOpenMessageParameter.write) := by
  simp [write, header]

/-- The message with the parameters that were read. -/
def withParams (message : BgpOpenMessage)
    (params : List (BgpOpenMessageParameter × List BgpCapabilityParsingError)) :
    BgpOpenMessage × List BgpCapabilityParsingError :=
  ({ message with params := params.map Prod.fst }, params.flatMap Prod.snd)

theorem withParams_received (message : BgpOpenMessage) :
    message.withParams (message.params.map fun param => (param.received, [])) =
      (message.received, []) := by
  simp [withParams, received, Function.comp_def]

theorem fromWire_header (failOnCapabilityError : Bool) {message : BgpOpenMessage}
    (acceptable : message.Acceptable) (buf : List UInt8) :
    fromWire failOnCapabilityError (message.header ++ buf) =
      (message.withParams <$> paramsFromWire failOnCapabilityError) buf := by
  have version : Reads versionFromWire [4] () := (Reads.beU8 _ 4).bind_nil (.pure ())
  have holdTime : Reads holdTimeFromWire (toBigEndian 2 message.holdTime.toNat)
      message.holdTime := by
    refine (Reads.beU16 _ _).bind_nil ?_
    rw [if_neg acceptable.holdTime]
    exact .pure _
  have bgpId : Reads bgpIdFromWire message.bgpId.octets.toList message.bgpId := by
    refine (ipv4Addr_reads _ _).bind_nil ?_
    rw [if_neg acceptable.bgpId]
    exact .pure _
  have parts : message.header ++ buf = [4] ++ (toBigEndian 2 message.myAs.toNat ++
      (toBigEndian 2 message.holdTime.toNat ++ (message.bgpId.octets.toList ++ buf))) := by
    simp [header]
  rw [parts, fromWire, version.then_eq, (Reads.beU16 _ message.myAs).then_eq, holdTime.then_eq,
    bgpId.then_eq]
  rfl

theorem fromWire_reads (failOnCapabilityError : Bool) {message : BgpOpenMessage}
    (acceptable : message.Acceptable) (short : message.paramsLen < 256) :
    Reads (fromWire failOnCapabilityError) message.write (message.received, []) := by
  intro rest
  have read := (paramsFromWire_reads failOnCapabilityError acceptable.readable short).map
    message.withParams
  rw [write_eq, List.append_assoc, fromWire_header failOnCapabilityError acceptable, read,
    withParams_received]

/-- An OPEN is read to its end exactly if its parameters fit the length octet. -/
theorem fromWire_write_iff (failOnCapabilityError : Bool) {message : BgpOpenMessage}
    (acceptable : message.Acceptable) :
    (∃ result, fromWire failOnCapabilityError message.write = .ok (result, [])) ↔
      message.paramsLen < 256 := by
  constructor
  · rintro ⟨result, parsed⟩
    by_contra long
    rw [write_eq, fromWire_header failOnCapabilityError acceptable] at parsed
    obtain ⟨params, parsed, -⟩ := ok_of_map parsed
    exact paramsFromWire_leaves acceptable.readable (not_lt.mp long) parsed rfl
  · intro short
    have read := fromWire_reads failOnCapabilityError acceptable short []
    rw [List.append_nil] at read
    exact ⟨_, read⟩

end BgpOpenMessage

/-! ## Answers -/

/-- The capabilities may all have been read. -/
def BgpOpenMessageParameter.Parsed : BgpOpenMessageParameter → Prop
  | capabilities values => ∀ capability ∈ values, capability.Parsed

theorem capabilityFromWire_yields (failOnCapabilityError : Bool) :
    Yields (capabilityFromWire failOnCapabilityError) fun value =>
      ∀ capability, value = .ok capability → capability.Parsed := by
  rintro buf value rest parsed capability rfl
  unfold capabilityFromWire at parsed
  split at parsed
  · rename_i same left read
    obtain ⟨same_, -⟩ := Prod.mk.inj (Except.ok.inj parsed)
    cases same_
    exact BgpCapability.fromWire_yields _ _ _ read
  · cases parsed
  · split at parsed
    · cases parsed
    · obtain ⟨_, -, ignored⟩ := ok_of_map parsed
      cases ignored

theorem capabilitiesFromWire_yields (failOnCapabilityError : Bool) :
    Yields (capabilitiesFromWire failOnCapabilityError) fun param => param.1.Parsed := by
  intro buf param rest parsed
  obtain ⟨values, left, looped, done⟩ := ok_of_bind parsed
  obtain ⟨rfl, -⟩ := Prod.mk.inj (Except.ok.inj done)
  have good := tillEmpty_forall (capabilityFromWire_consumes failOnCapabilityError)
    (capabilityFromWire_yields failOnCapabilityError) looped
  intro capability member
  obtain ⟨value, member, taken⟩ := List.mem_filterMap.mp member
  cases value with
  | error error => cases taken
  | ok same =>
      cases taken
      exact good _ member _ rfl

theorem BgpOpenMessageParameter.fromWire_yields (failOnCapabilityError : Bool) :
    Yields (fromWire failOnCapabilityError) fun param => param.1.Parsed := by
  refine (Yields.any _).bind fun paramType _ => ?_
  split
  · refine (Yields.any _).bind fun capabilitiesBuf _ => .within fun param left parsed => ?_
    exact capabilitiesFromWire_yields _ _ _ _ parsed
  · exact .fail _

namespace BgpOpenMessage

theorem fromWire_yields (failOnCapabilityError : Bool) :
    Yields (fromWire failOnCapabilityError) fun message =>
      ∀ capability ∈ message.1.capabilities, capability.Parsed := by
  have params : Yields (paramsFromWire failOnCapabilityError) fun params =>
      ∀ param ∈ params, param.1.Parsed := by
    refine (Yields.any _).bind fun paramsBuf _ => .within fun params left looped => ?_
    refine tillEmpty_forall ((BgpOpenMessageParameter.fromWire_consumes _).mapErr _) ?_ looped
    intro buf param rest parsed
    exact BgpOpenMessageParameter.fromWire_yields _ _ _ _ (ok_of_mapErr parsed)
  refine (Yields.any _).bind fun _ _ => (Yields.any _).bind fun myAs _ =>
    (Yields.any _).bind fun holdTime _ => (Yields.any _).bind fun bgpId _ =>
      params.bind fun params good => .pure ?_
  intro capability member
  obtain ⟨param, member, inside⟩ := List.mem_flatMap.mp member
  obtain ⟨⟨⟨values⟩, errors⟩, read, rfl⟩ := List.mem_map.mp member
  exact good (.capabilities values, errors) read capability inside

theorem readable_params {message : BgpOpenMessage}
    (readable : ∀ capability ∈ message.capabilities, capability.Readable) :
    ∀ param ∈ message.params, param.Readable := by
  rintro ⟨values⟩ member capability inside
  exact readable capability (List.mem_flatMap.mpr ⟨_, member, inside⟩)

/-- The OPEN that answers one that was read, its capabilities echoed, is read to its end by the
    other side exactly if its parameters fit the length octet. -/
theorem answer_read_iff {failOnCapabilityError : Bool} {buf rest : List UInt8}
    {theirs : BgpOpenMessage} {errors : List BgpCapabilityParsingError}
    (parsed : fromWire failOnCapabilityError buf = .ok ((theirs, errors), rest))
    (unlabeled : ∀ labels, .multipleLabels labels ∉ theirs.capabilities)
    {policy : EchoCapabilitiesPolicy}
    (configured : ∀ capability ∈ policy.capabilities, capability.Readable)
    (bgpId : ¬ InvalidBgpId policy.myBgpId)
    (holdTime : ¬ (policy.holdTimerDuration = 1 ∨ policy.holdTimerDuration = 2))
    {ours : BgpOpenMessage}
    (answers : (policy.preHandleConnectionEventHook (.bgpOpen theirs)).openMessage = ours)
    (theirFailOnCapabilityError : Bool) :
    (∃ result, fromWire theirFailOnCapabilityError ours.write = .ok (result, [])) ↔
      ours.paramsLen < 256 := by
  have heard := fromWire_yields _ _ _ _ parsed
  have echoed : ∀ capability ∈ theirs.capabilities, capability.Readable := by
    intro capability member
    rcases heard capability member with readable | ⟨labels, rfl⟩
    · exact readable
    · exact absurd member (unlabeled labels)
  have said : ∀ capability ∈ ours.capabilities, capability.Readable := by
    intro capability member
    rw [← answers, EchoCapabilitiesPolicy.capabilities_openMessage] at member
    rcases List.mem_append.mp member with own | echo
    · rcases EchoCapabilitiesPolicy.ownCapabilities_cases _ with same | ⟨same, -⟩
      · rw [same] at own
        rcases List.mem_cons.mp own with rfl | own
        · trivial
        · exact configured capability own
      · exact configured capability (same ▸ own)
    · have inside := (List.mem_filter.mp echo).1
      exact echoed capability (List.mem_filter.mp inside).1
  refine fromWire_write_iff theirFailOnCapabilityError ⟨?_, ?_, readable_params said⟩
  · exact answers ▸ holdTime
  · exact answers ▸ bgpId

/-- The other side can refresh routes. -/
def refreshingOpen : BgpOpenMessage :=
  { Peer.theirOpen with params := [.capabilities [.routeRefresh, .enhancedRouteRefresh]] }

theorem refreshingOpen_answered :
    ∃ ours, fromWire true [4, 252, 1, 0, 240, 10, 0, 0, 1, 6, 2, 4, 2, 0, 70, 0] =
        .ok ((refreshingOpen, []), []) ∧
      (Peer.examplePolicy.preHandleConnectionEventHook (.bgpOpen refreshingOpen)).openMessage =
        ours ∧
      ((∃ result, fromWire true ours.write = .ok (result, [])) ↔ ours.paramsLen < 256) := by
  have heard : fromWire true [4, 252, 1, 0, 240, 10, 0, 0, 1, 6, 2, 4, 2, 0, 70, 0] =
      .ok ((refreshingOpen, []), []) := rfl
  have unlabeled : ∀ labels, .multipleLabels labels ∉ refreshingOpen.capabilities := by
    intro labels member
    simp [capabilities, refreshingOpen] at member
  exact ⟨_, heard, rfl, answer_read_iff heard unlabeled (by rintro _ ⟨⟩) (by decide) (by decide) rfl
    true⟩

end BgpOpenMessage

end Erez.Speaker
