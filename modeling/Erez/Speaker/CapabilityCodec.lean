import Erez.Speaker.Events

/-! # Capabilities on the wire

A capability is a code, a length and a value. Each kind has a parser of its own for what
follows the code; a code without a name keeps its value as it is.
-/

namespace Erez.Speaker

open Daemon Erez.Lib ByteParser

/-! ## Decoding -/

/-- `check_capability_length`. -/
def checkCapabilityLength (eof : BgpCapabilityParsingError) (expected : UInt8)
    (err : UInt8 → BgpCapabilityParsingError) : ByteParser BgpCapabilityParsingError Unit := do
  let length ← beU8 eof
  if length = expected then pure () else fail (err length)

def FamilyParsingError.eof : FamilyParsingError :=
  .nomError .eof

section Families

variable (wrong : FamilyParsingError → BgpCapabilityParsingError)

def afiFromWire : ByteParser BgpCapabilityParsingError UInt16 := do
  let afi ← beU16 (wrong .eof)
  if AddressFamily.isDefined afi then pure afi else fail (wrong (.addressFamilyError afi))

def safiFromWire (octets : ByteParser BgpCapabilityParsingError UInt8) :
    ByteParser BgpCapabilityParsingError UInt8 := do
  let safi ← octets
  if SubsequentAddressFamily.isDefined safi then pure safi
  else fail (wrong (.subsequentAddressFamilyError safi))

def addressTypeOf (afi : UInt16) (safi : UInt8) :
    ByteParser BgpCapabilityParsingError AddressType :=
  match AddressType.fromAfiSafi afi safi with
  | some addressType => pure addressType
  | none => fail (wrong (.addressTypeError afi safi))

/-- The AFI and, right behind it, the SAFI. -/
def addressTypeFromWire : ByteParser BgpCapabilityParsingError AddressType := do
  let afi ← afiFromWire wrong
  let safi ← safiFromWire wrong (beU8 (wrong .eof))
  addressTypeOf wrong afi safi

end Families

def MultiProtocolExtensions.fromWire : ByteParser BgpCapabilityParsingError AddressType := do
  let wrong := BgpCapabilityParsingError.multiProtocolExtensionsCapabilityError
  checkCapabilityLength (wrong .eof) 4 .multiProtocolExtensionsInvalidLength
  let afi ← afiFromWire wrong
  let _ ← beU8 (wrong .eof)
  let safi ← safiFromWire wrong (beU8 (wrong .eof))
  addressTypeOf wrong afi safi

def GracefulRestartAddressFamily.fromWire :
    ByteParser BgpCapabilityParsingError GracefulRestartAddressFamily := do
  let wrong := BgpCapabilityParsingError.gracefulRestartCapabilityError
  let eheBuf ← take (wrong .eof) 4
  within eheBuf do
    let addressType ← addressTypeFromWire wrong
    let flags ← beU8 (wrong .eof)
    pure ⟨flags &&& 0x80 == 0x80, addressType⟩

def GracefulRestartCapability.fromWire :
    ByteParser BgpCapabilityParsingError GracefulRestartCapability := do
  let wrong := BgpCapabilityParsingError.gracefulRestartCapabilityError
  let paramsBuf ← lengthU8 (wrong .eof)
  within paramsBuf do
    let header ← beU16 (wrong .eof)
    let addressFamilies ← tillEmpty GracefulRestartAddressFamily.fromWire
    pure ⟨header &&& 0x8000 == 0x8000, header &&& 0x4000 == 0x4000, header &&& 0x0fff,
      addressFamilies⟩

def AddPathAddressFamily.fromWire : ByteParser BgpCapabilityParsingError AddPathAddressFamily := do
  let wrong := BgpCapabilityParsingError.addPathCapabilityError
  let addressType ← addressTypeFromWire wrong
  let sendReceive ← beU8 (wrong .eof)
  if sendReceive > 0x03 then fail (.invalidAddPathSendReceiveValue sendReceive)
  else pure ⟨addressType, sendReceive &&& 0x02 == 0x02, sendReceive &&& 0x01 == 0x01⟩

def AddPath.fromWire : ByteParser BgpCapabilityParsingError (List AddPathAddressFamily) := do
  let paramsBuf ← lengthU8 (.addPathCapabilityError .eof)
  within paramsBuf (tillEmpty AddPathAddressFamily.fromWire)

def ExtendedNextHopEncoding.fromWire :
    ByteParser BgpCapabilityParsingError ExtendedNextHopEncoding := do
  let wrong := BgpCapabilityParsingError.extendedNextHopEncodingCapabilityError
  let eheBuf ← take (wrong .eof) 6
  within eheBuf do
    let nlriAfi ← afiFromWire wrong
    let nlriSafi ← safiFromWire wrong (UInt16.toUInt8 <$> beU16 (wrong .eof))
    let addressType ← addressTypeOf wrong nlriAfi nlriSafi
    let nextHopAfi ← beU16 (wrong .eof)
    if defined : AddressFamily.isDefined nextHopAfi then pure ⟨addressType, nextHopAfi, defined⟩
    else fail (wrong (.addressFamilyError nextHopAfi))

def ExtendedNextHopEncodingCapability.fromWire :
    ByteParser BgpCapabilityParsingError (List ExtendedNextHopEncoding) := do
  let encodingsBuf ← lengthU8 (.extendedNextHopEncodingCapabilityError .eof)
  within encodingsBuf (tillEmpty ExtendedNextHopEncoding.fromWire)

def MultipleLabel.fromWire : ByteParser BgpCapabilityParsingError MultipleLabel := do
  let wrong := BgpCapabilityParsingError.multipleLabelError
  let addressType ← addressTypeFromWire wrong
  let count ← beU8 (wrong .eof)
  pure ⟨addressType, count⟩

def BgpRoleValue.toUInt8 : BgpRoleValue → UInt8
  | provider => 0
  | customer => 1
  | rs => 2
  | rsClient => 3
  | peer => 4

def BgpRoleValue.ofUInt8? (role : UInt8) : Option BgpRoleValue :=
  [provider, customer, rs, rsClient, peer][role.toNat]?

def BgpRole.fromWire : ByteParser BgpCapabilityParsingError BgpRoleValue := do
  checkCapabilityLength (.bgpRoleNomError .eof) 1 .bgpRoleInvalidLength
  let role ← beU8 (.bgpRoleNomError .eof)
  match BgpRoleValue.ofUInt8? role with
  | some value => pure value
  | none => fail (.undefinedBgpRoleValue role)

def FourOctetAs.fromWire : ByteParser BgpCapabilityParsingError UInt32 := do
  checkCapabilityLength (.fourOctetAsNomError .eof) 4 .fourOctetAsInvalidLength
  beU32 (.fourOctetAsNomError .eof)

namespace BgpCapability

/-- A capability that is nothing but its code. -/
def flagFromWire (err : UInt8 → BgpCapabilityParsingError) (capability : BgpCapability) :
    ByteParser BgpCapabilityParsingError BgpCapability := do
  checkCapabilityLength (.nomError .eof) 0 err
  pure capability

/-- The codes that have a parser of their own. -/
def IsKnown (code : UInt8) : Bool :=
  [1, 2, 5, 6, 8, 9, 64, 65, 69, 70, 128].contains code

/-- What follows the code. -/
def valueFromWire (code : UInt8) : ByteParser BgpCapabilityParsingError BgpCapability :=
  if code = 1 then multiProtocolExtensions <$> MultiProtocolExtensions.fromWire
  else if code = 2 then flagFromWire .invalidRouteRefreshLength routeRefresh
  else if code = 5 then extendedNextHopEncoding <$> ExtendedNextHopEncodingCapability.fromWire
  else if code = 128 then flagFromWire .invalidRouteRefreshLength ciscoRouteRefresh
  else if code = 6 then flagFromWire .invalidExtendedMessageLength extendedMessage
  -- No length is read: the labels go on to the end of the parameter.
  else if code = 8 then multipleLabels <$> tillEmpty MultipleLabel.fromWire
  else if code = 9 then bgpRole <$> BgpRole.fromWire
  else if code = 64 then gracefulRestart <$> GracefulRestartCapability.fromWire
  else if code = 65 then fourOctetAs <$> FourOctetAs.fromWire
  else if code = 69 then addPath <$> AddPath.fromWire
  else if code = 70 then flagFromWire .invalidEnhancedRouteRefreshLength enhancedRouteRefresh
  else if defined : ExperimentalCapabilityCode.isDefined code then
    experimental ⟨code, defined⟩ <$> countU8 (.nomError .eof)
  else unrecognized code <$> countU8 (.nomError .eof)

def fromWire : ByteParser BgpCapabilityParsingError BgpCapability := do
  let code ← beU8 (.nomError .eof)
  valueFromWire code

end BgpCapability

/-! ## Encoding -/

def AddressType.write (addressType : AddressType) : List UInt8 :=
  toBigEndian 2 addressType.addressFamily.toNat ++ [addressType.subsequentAddressFamily]

def GracefulRestartAddressFamily.write (family : GracefulRestartAddressFamily) : List UInt8 :=
  family.addressType.write ++ [if family.forwardingState then 0x80 else 0x00]

def GracefulRestartCapability.header (value : GracefulRestartCapability) : UInt16 :=
  (if value.restart then 0x8000 else 0) ||| (if value.gracefulNotification then 0x4000 else 0) |||
    value.time

def GracefulRestartCapability.write (value : GracefulRestartCapability) : List UInt8 :=
  toBigEndian 2 value.header.toNat ++
    value.addressFamilies.flatMap GracefulRestartAddressFamily.write

/-- The flags are not those of the family: it is forced to be received, and not sent. -/
def AddPathAddressFamily.write (family : AddPathAddressFamily) : List UInt8 :=
  family.addressType.write ++ [1]

def ExtendedNextHopEncoding.write (encoding : ExtendedNextHopEncoding) : List UInt8 :=
  toBigEndian 2 encoding.addressType.addressFamily.toNat ++
    (toBigEndian 2 encoding.addressType.subsequentAddressFamily.toUInt16.toNat ++
      toBigEndian 2 encoding.nextHopAfi.val.toNat)

def MultipleLabel.write (label : MultipleLabel) : List UInt8 :=
  label.addressType.write ++ [label.count]

namespace BgpCapability

/-- The length that is written, or taken for the capability where none is. -/
def valueLen : BgpCapability → ℕ
  | multiProtocolExtensions _ => 4
  | routeRefresh | enhancedRouteRefresh | ciscoRouteRefresh | extendedMessage => 0
  | fourOctetAs _ => 4
  | gracefulRestart value => 4 + 4 * value.addressFamilies.length - 2
  | addPath addressFamilies => 4 * addressFamilies.length
  | extendedNextHopEncoding encodings => 1 + 6 * encodings.length - 1
  | multipleLabels labels => 4 * labels.length
  | bgpRole _ => 1
  | experimental _ value => value.length
  | unrecognized _ value => value.length

def len (capability : BgpCapability) : ℕ :=
  2 + capability.valueLen

def write (capability : BgpCapability) : List UInt8 :=
  let len := (capability.len - 2).toUInt8
  match capability with
  | multiProtocolExtensions addressType =>
      [1, 4] ++ (toBigEndian 2 addressType.addressFamily.toNat ++
        [0, addressType.subsequentAddressFamily])
  | routeRefresh => [2, len]
  | enhancedRouteRefresh => [70, len]
  | ciscoRouteRefresh => [128, len]
  | extendedMessage => [6, len]
  | multipleLabels labels => 8 :: labels.flatMap MultipleLabel.write
  | bgpRole role => [9, len, role.toUInt8]
  | gracefulRestart value => [64, len] ++ value.write
  | addPath addressFamilies => [69, len] ++ addressFamilies.flatMap AddPathAddressFamily.write
  | fourOctetAs asn4 => [65, 4] ++ toBigEndian 4 asn4.toNat
  | extendedNextHopEncoding encodings =>
      [5, (1 + 6 * encodings.length).toUInt8 - 1] ++ encodings.flatMap ExtendedNextHopEncoding.write
  | experimental code value => [code.val, len] ++ value
  | unrecognized code value => [code, len] ++ value

end BgpCapability

/-! ## What is read of what is written -/

section Families

variable {wrong : FamilyParsingError → BgpCapabilityParsingError}

theorem afiFromWire_reads {afi : UInt16} (defined : AddressFamily.isDefined afi = true) :
    Reads (afiFromWire wrong) (toBigEndian 2 afi.toNat) afi := by
  refine (Reads.beU16 _ afi).bind_nil ?_
  rw [if_pos defined]
  exact .pure afi

theorem safiFromWire_reads {octets : ByteParser BgpCapabilityParsingError UInt8}
    {bytes : List UInt8} {safi : UInt8} (read : Reads octets bytes safi)
    (defined : SubsequentAddressFamily.isDefined safi = true) :
    Reads (safiFromWire wrong octets) bytes safi := by
  refine read.bind_nil ?_
  rw [if_pos defined]
  exact .pure safi

theorem addressTypeOf_reads (addressType : AddressType) :
    Reads (addressTypeOf wrong addressType.addressFamily addressType.subsequentAddressFamily) []
      addressType := by
  rw [addressTypeOf, addressType.fromAfiSafi_eq]
  exact .pure addressType

theorem addressTypeFromWire_reads (addressType : AddressType) :
    Reads (addressTypeFromWire wrong) addressType.write addressType := by
  refine (afiFromWire_reads addressType.isDefined.1).bind ?_
  refine (safiFromWire_reads (.beU8 _ _) addressType.isDefined.2).bind_nil ?_
  exact addressTypeOf_reads addressType

@[simp] theorem AddressType.length_write (addressType : AddressType) :
    addressType.write.length = 3 := by
  simp [AddressType.write]

theorem checkCapabilityLength_reads (eof : BgpCapabilityParsingError) (expected : UInt8)
    (err : UInt8 → BgpCapabilityParsingError) :
    Reads (checkCapabilityLength eof expected err) [expected] () := by
  refine (Reads.beU8 eof expected).bind_nil ?_
  rw [if_pos rfl]
  exact .pure ()

end Families

theorem MultiProtocolExtensions.fromWire_reads (addressType : AddressType) :
    Reads MultiProtocolExtensions.fromWire
      (4 :: (toBigEndian 2 addressType.addressFamily.toNat ++
        [0, addressType.subsequentAddressFamily])) addressType := by
  refine (checkCapabilityLength_reads _ 4 _).bind ?_
  refine (afiFromWire_reads addressType.isDefined.1).bind ?_
  refine .beU8_bind _ 0 ?_
  exact (safiFromWire_reads (.beU8 _ _) addressType.isDefined.2).bind_nil
    (addressTypeOf_reads addressType)

theorem GracefulRestartAddressFamily.fromWire_reads (family : GracefulRestartAddressFamily) :
    Reads GracefulRestartAddressFamily.fromWire family.write family := by
  have flags : ((if family.forwardingState then 0x80 else 0x00 : UInt8) &&& 0x80 == 0x80) =
      family.forwardingState := by
    cases family.forwardingState <;> rfl
  refine .take_within _ (by simp [write]) ?_
  refine (addressTypeFromWire_reads family.addressType).bind (.beU8_bind _ _ ?_)
  rw [flags]
  exact .pure family

theorem AddPathAddressFamily.fromWire_reads (family : AddPathAddressFamily) :
    Reads AddPathAddressFamily.fromWire family.write ⟨family.addressType, false, true⟩ := by
  refine (addressTypeFromWire_reads family.addressType).bind (.beU8_bind _ 1 ?_)
  rw [if_neg (by decide)]
  exact .pure _

theorem ExtendedNextHopEncoding.fromWire_reads (encoding : ExtendedNextHopEncoding) :
    Reads ExtendedNextHopEncoding.fromWire encoding.write encoding := by
  obtain ⟨addressType, nextHopAfi, defined⟩ := encoding
  refine .take_within _ (by simp [write]) ?_
  refine (afiFromWire_reads addressType.isDefined.1).bind ?_
  have safi := (Reads.beU16 (BgpCapabilityParsingError.extendedNextHopEncodingCapabilityError .eof)
    addressType.subsequentAddressFamily.toUInt16).map UInt16.toUInt8
  rw [UInt8.toUInt8_toUInt16] at safi
  refine (safiFromWire_reads safi addressType.isDefined.2).bind ?_
  refine (addressTypeOf_reads addressType).bind
    (b := (⟨addressType, nextHopAfi, defined⟩ : ExtendedNextHopEncoding)) ?_
  refine (Reads.beU16 _ nextHopAfi).bind_nil ?_
  rw [dif_pos defined]
  exact .pure _

theorem MultipleLabel.fromWire_reads (label : MultipleLabel) :
    Reads MultipleLabel.fromWire label.write label :=
  (addressTypeFromWire_reads label.addressType).bind (.beU8_bind _ label.count (.pure label))

theorem BgpRole.fromWire_reads (role : BgpRoleValue) :
    Reads BgpRole.fromWire [1, role.toUInt8] role := by
  refine (checkCapabilityLength_reads _ 1 _).bind (.beU8_bind _ _ ?_)
  cases role <;> exact .pure _

theorem FourOctetAs.fromWire_reads (asn4 : UInt32) :
    Reads FourOctetAs.fromWire (4 :: toBigEndian 4 asn4.toNat) asn4 :=
  (checkCapabilityLength_reads _ 4 _).bind (.beU32 _ asn4)

/-! ## The header of a graceful restart -/

private theorem or_and (a b c : UInt16) : (a ||| b) &&& c = (a &&& c) ||| (b &&& c) := by
  apply UInt16.toNat_inj.mp
  simp [Nat.and_or_distrib_right]

private theorem and_high {time : UInt16} (bit : ℕ) (high : 12 ≤ bit) (short : time.toNat < 4096) :
    time.toNat &&& 2 ^ bit = 0 := by
  have below : time.toNat < 2 ^ bit :=
    short.trans_le (Nat.pow_le_pow_right (show 2 > 0 by decide) high)
  rw [Nat.and_two_pow, Nat.testBit_lt_two_pow below]
  exact Nat.zero_mul _

/-- The flags are beside the time, if the time fits. -/
theorem GracefulRestartCapability.header_and {value : GracefulRestartCapability}
    (short : value.time.toNat < 4096) :
    (value.header &&& 0x8000 == 0x8000) = value.restart ∧
      (value.header &&& 0x4000 == 0x4000) = value.gracefulNotification ∧
      value.header &&& 0x0fff = value.time := by
  have restart : value.time &&& 0x8000 = 0 := by
    apply UInt16.toNat_inj.mp
    simpa using and_high 15 (by decide) short
  have notification : value.time &&& 0x4000 = 0 := by
    apply UInt16.toNat_inj.mp
    simpa using and_high 14 (by decide) short
  have time : value.time &&& 0x0fff = value.time := by
    apply UInt16.toNat_inj.mp
    have low := Nat.and_two_pow_sub_one_eq_mod value.time.toNat 12
    rw [Nat.mod_eq_of_lt short] at low
    simpa using low
  have apart : (0x8000 : UInt16) &&& 0x4000 = 0 ∧ (0x8000 : UInt16) &&& 0x0fff = 0 ∧
      (0x4000 : UInt16) &&& 0x8000 = 0 ∧ (0x4000 : UInt16) &&& 0x0fff = 0 := by
    decide
  simp only [header]
  cases value.restart <;> cases value.gracefulNotification <;>
    simp [or_and, restart, notification, time, apart]

/-! ## Round trips -/

section Progress

variable {wrong : FamilyParsingError → BgpCapabilityParsingError}

theorem afiFromWire_consumes : Consumes 2 (afiFromWire wrong) := by
  refine Consumes.bind (k := 0) (.beU16 _) fun afi => ?_
  split
  · exact .pure afi
  · exact .fail 0 _

theorem safiFromWire_consumes {octets : ByteParser BgpCapabilityParsingError UInt8} {k : ℕ}
    (h : Consumes k octets) : Consumes k (safiFromWire wrong octets) := by
  refine Consumes.bind (k := 0) h fun safi => ?_
  split
  · exact .pure safi
  · exact .fail 0 _

theorem addressTypeOf_consumes (afi : UInt16) (safi : UInt8) :
    Consumes 0 (addressTypeOf wrong afi safi) := by
  rw [addressTypeOf]
  split
  · exact .pure _
  · exact .fail 0 _

theorem addressTypeFromWire_consumes : Consumes 3 (addressTypeFromWire wrong) :=
  .bind (k := 1) afiFromWire_consumes fun afi =>
    .bind (k := 0) (safiFromWire_consumes (.beU8 _)) fun safi =>
      addressTypeOf_consumes afi safi

theorem checkCapabilityLength_consumes (eof : BgpCapabilityParsingError) (expected : UInt8)
    (err : UInt8 → BgpCapabilityParsingError) :
    Consumes 1 (checkCapabilityLength eof expected err) := by
  refine .bind (k := 0) (.beU8 eof) fun length => ?_
  split
  · exact .pure ()
  · exact .fail 0 _

end Progress

theorem GracefulRestartAddressFamily.fromWire_consumes :
    Consumes 4 GracefulRestartAddressFamily.fromWire :=
  .bind (k := 0) (.take _ 4) fun eheBuf => .within eheBuf _

theorem AddPathAddressFamily.fromWire_consumes : Consumes 4 AddPathAddressFamily.fromWire := by
  refine .bind (k := 1) addressTypeFromWire_consumes fun addressType => ?_
  refine .bind (k := 0) (.beU8 _) fun sendReceive => ?_
  split
  · exact .fail 0 _
  · exact .pure _

theorem ExtendedNextHopEncoding.fromWire_consumes : Consumes 6 ExtendedNextHopEncoding.fromWire :=
  .bind (k := 0) (.take _ 6) fun eheBuf => .within eheBuf _

theorem MultiProtocolExtensions.fromWire_consumes : Consumes 5 MultiProtocolExtensions.fromWire :=
  .bind (k := 4) (checkCapabilityLength_consumes _ 4 _) fun _ =>
    .bind (k := 2) afiFromWire_consumes fun afi =>
      .bind (k := 1) (.beU8 _) fun _ =>
        .bind (k := 0) (safiFromWire_consumes (.beU8 _)) fun safi => addressTypeOf_consumes afi safi

theorem BgpRole.fromWire_consumes : Consumes 2 BgpRole.fromWire := by
  refine .bind (k := 1) (checkCapabilityLength_consumes _ 1 _) fun _ => ?_
  refine .bind (k := 0) (.beU8 _) fun role => ?_
  split
  · exact .pure _
  · exact .fail 0 _

theorem FourOctetAs.fromWire_consumes : Consumes 5 FourOctetAs.fromWire :=
  .bind (k := 4) (checkCapabilityLength_consumes _ 4 _) fun _ => .beU32 _

theorem GracefulRestartCapability.fromWire_consumes :
    Consumes 1 GracefulRestartCapability.fromWire :=
  .bind (k := 0) (.lengthU8 _) fun paramsBuf => .within paramsBuf _

theorem AddPath.fromWire_consumes : Consumes 1 AddPath.fromWire :=
  .bind (k := 0) (.lengthU8 _) fun paramsBuf => .within paramsBuf _

theorem ExtendedNextHopEncodingCapability.fromWire_consumes :
    Consumes 1 ExtendedNextHopEncodingCapability.fromWire :=
  .bind (k := 0) (.lengthU8 _) fun encodingsBuf => .within encodingsBuf _

namespace BgpCapability

theorem flagFromWire_consumes (err : UInt8 → BgpCapabilityParsingError)
    (capability : BgpCapability) : Consumes 1 (flagFromWire err capability) :=
  .bind (k := 0) (checkCapabilityLength_consumes _ 0 err) fun _ => .pure capability

theorem isKnown_iff {code : UInt8} :
    IsKnown code = true ↔ code = 1 ∨ code = 2 ∨ code = 5 ∨ code = 6 ∨ code = 8 ∨ code = 9 ∨
      code = 64 ∨ code = 65 ∨ code = 69 ∨ code = 70 ∨ code = 128 := by
  simp [IsKnown]

theorem valueFromWire_of_unknown {code : UInt8} (unknown : IsKnown code = false) :
    valueFromWire code =
      if defined : ExperimentalCapabilityCode.isDefined code then
        experimental ⟨code, defined⟩ <$> countU8 (.nomError .eof)
      else unrecognized code <$> countU8 (.nomError .eof) := by
  have other := isKnown_iff.not.mp (Bool.eq_false_iff.mp unknown)
  simp only [not_or] at other
  simp only [valueFromWire, other, if_false]

theorem valueFromWire_consumes (code : UInt8) : Consumes 0 (valueFromWire code) := by
  by_cases known : IsKnown code = true
  · rcases isKnown_iff.mp known with rfl | rfl | rfl | rfl | rfl | rfl | rfl | rfl | rfl | rfl | rfl
    · exact (MultiProtocolExtensions.fromWire_consumes.map _).mono (Nat.zero_le _)
    · exact (flagFromWire_consumes _ _).mono (Nat.zero_le _)
    · exact (ExtendedNextHopEncodingCapability.fromWire_consumes.map _).mono (Nat.zero_le _)
    · exact (flagFromWire_consumes _ _).mono (Nat.zero_le _)
    · exact (Consumes.tillEmpty _).map _
    · exact (BgpRole.fromWire_consumes.map _).mono (Nat.zero_le _)
    · exact (GracefulRestartCapability.fromWire_consumes.map _).mono (Nat.zero_le _)
    · exact (FourOctetAs.fromWire_consumes.map _).mono (Nat.zero_le _)
    · exact (AddPath.fromWire_consumes.map _).mono (Nat.zero_le _)
    · exact (flagFromWire_consumes _ _).mono (Nat.zero_le _)
    · exact (flagFromWire_consumes _ _).mono (Nat.zero_le _)
  · rw [valueFromWire_of_unknown (Bool.eq_false_iff.mpr known)]
    split <;> exact ((Consumes.countU8 _).map _).mono (Nat.zero_le _)

/-- A capability has at least its code. -/
theorem fromWire_consumes : Consumes 1 fromWire :=
  .bind (k := 0) (.beU8 _) valueFromWire_consumes

end BgpCapability

theorem MultipleLabel.fromWire_consumes : Consumes 4 MultipleLabel.fromWire :=
  .bind (k := 1) addressTypeFromWire_consumes fun _ =>
    .bind (k := 0) (.beU8 _) fun _ => .pure _

/-! ## Round trips -/

theorem GracefulRestartAddressFamily.length_write (family : GracefulRestartAddressFamily) :
    family.write.length = 4 := by
  simp [write]

theorem AddPathAddressFamily.length_write (family : AddPathAddressFamily) :
    family.write.length = 4 := by
  simp [write]

theorem ExtendedNextHopEncoding.length_write (encoding : ExtendedNextHopEncoding) :
    encoding.write.length = 6 := by
  simp [write]

theorem MultipleLabel.length_write (label : MultipleLabel) : label.write.length = 4 := by
  simp [write]

theorem length_flatMap {α : Type} {write : α → List UInt8} {k : ℕ}
    (size : ∀ a, (write a).length = k) (values : List α) :
    (values.flatMap write).length = k * values.length := by
  rw [List.length_flatMap, funext size, List.map_const', List.sum_replicate, smul_eq_mul,
    Nat.mul_comm]

theorem GracefulRestartCapability.fromWire_reads {value : GracefulRestartCapability}
    (time : value.time.toNat < 4096) (short : 2 + 4 * value.addressFamilies.length < 256) :
    Reads GracefulRestartCapability.fromWire
      ((4 + 4 * value.addressFamilies.length - 2).toUInt8 :: value.write) value := by
  have size : value.write.length = 4 + 4 * value.addressFamilies.length - 2 := by
    rw [write, List.length_append, length_toBigEndian,
      length_flatMap GracefulRestartAddressFamily.length_write]
    omega
  have families := tillEmpty_flatMap
    (GracefulRestartAddressFamily.fromWire_consumes.mono (by decide)) fun family (_ : family ∈ value.addressFamilies) => family.fromWire_reads
  obtain ⟨restart, notification, time_⟩ := header_and time
  have body := (Reads.beU16 (BgpCapabilityParsingError.gracefulRestartCapabilityError .eof)
    value.header).then_eq (fun header => do
      let addressFamilies ← tillEmpty GracefulRestartAddressFamily.fromWire
      pure (⟨header &&& 0x8000 == 0x8000, header &&& 0x4000 == 0x4000, header &&& 0x0fff,
        addressFamilies⟩ : GracefulRestartCapability))
    (value.addressFamilies.flatMap GracefulRestartAddressFamily.write)
  rw [bind_of_ok families, restart, notification, time_] at body
  rw [← size]
  exact .lengthU8_within _ (by omega) body

/-- The family as it is announced. -/
def AddPathAddressFamily.received (family : AddPathAddressFamily) : AddPathAddressFamily :=
  ⟨family.addressType, false, true⟩

theorem AddPath.fromWire_reads {families : List AddPathAddressFamily}
    (short : 4 * families.length < 256) :
    Reads AddPath.fromWire
      ((4 * families.length).toUInt8 :: families.flatMap AddPathAddressFamily.write)
      (families.map AddPathAddressFamily.received) := by
  have size : (families.flatMap AddPathAddressFamily.write).length = 4 * families.length :=
    length_flatMap AddPathAddressFamily.length_write families
  rw [← size]
  exact .lengthU8_within _ (by omega) <|
    tillEmpty_flatMap_map (AddPathAddressFamily.fromWire_consumes.mono (by decide))
      fun family _ => family.fromWire_reads

theorem ExtendedNextHopEncodingCapability.fromWire_reads {encodings : List ExtendedNextHopEncoding}
    (short : 6 * encodings.length < 256) :
    Reads ExtendedNextHopEncodingCapability.fromWire
      ((6 * encodings.length).toUInt8 :: encodings.flatMap ExtendedNextHopEncoding.write)
      encodings := by
  have size : (encodings.flatMap ExtendedNextHopEncoding.write).length = 6 * encodings.length :=
    length_flatMap ExtendedNextHopEncoding.length_write encodings
  rw [← size]
  exact .lengthU8_within _ (by omega) <|
    tillEmpty_flatMap (ExtendedNextHopEncoding.fromWire_consumes.mono (by decide))
      fun encoding _ => encoding.fromWire_reads

namespace BgpCapability

/-- A capability as it can be read, but for labels. -/
def Readable : BgpCapability → Prop
  | gracefulRestart value => value.time.toNat < 4096 ∧ 2 + 4 * value.addressFamilies.length < 256
  | addPath addressFamilies => 4 * addressFamilies.length < 256
  | extendedNextHopEncoding encodings => 6 * encodings.length < 256
  | multipleLabels _ => False
  | experimental _ value => value.length < 256
  | unrecognized code value =>
      IsKnown code = false ∧ ExperimentalCapabilityCode.isDefined code = false ∧ value.length < 256
  | _ => True

/-- What another speaker reads. -/
def received : BgpCapability → BgpCapability
  | addPath addressFamilies =>
      addPath (addressFamilies.map AddPathAddressFamily.received)
  | capability => capability

theorem isKnown_of_experimental {code : UInt8}
    (defined : ExperimentalCapabilityCode.isDefined code = true) : IsKnown code = false := by
  by_contra known
  have code_ := isKnown_iff.mp (Bool.not_eq_false _ ▸ known)
  rcases code_ with rfl | rfl | rfl | rfl | rfl | rfl | rfl | rfl | rfl | rfl | rfl <;>
    exact absurd defined (by decide)

theorem len_sub (capability : BgpCapability) : capability.len - 2 = capability.valueLen :=
  Nat.add_sub_cancel_left ..

/-- A capability is read as it was written; only Add-Path is always the one way. -/
theorem fromWire_reads {capability : BgpCapability} (readable : capability.Readable) :
    Reads fromWire capability.write capability.received := by
  cases capability with
  | multiProtocolExtensions addressType =>
      exact .beU8_bind _ 1 ((MultiProtocolExtensions.fromWire_reads addressType).map _)
  | routeRefresh => exact .beU8_bind _ 2 ((checkCapabilityLength_reads _ 0 _).bind (.pure _))
  | enhancedRouteRefresh =>
      exact .beU8_bind _ 70 ((checkCapabilityLength_reads _ 0 _).bind (.pure _))
  | ciscoRouteRefresh =>
      exact .beU8_bind _ 128 ((checkCapabilityLength_reads _ 0 _).bind (.pure _))
  | extendedMessage => exact .beU8_bind _ 6 ((checkCapabilityLength_reads _ 0 _).bind (.pure _))
  | gracefulRestart value =>
      rw [write, len_sub]
      exact .beU8_bind _ 64
        ((GracefulRestartCapability.fromWire_reads readable.1 readable.2).map _)
  | addPath addressFamilies =>
      rw [write, len_sub]
      exact .beU8_bind _ 69 ((AddPath.fromWire_reads readable).map _)
  | multipleLabels labels => exact readable.elim
  | bgpRole role => exact .beU8_bind _ 9 ((BgpRole.fromWire_reads role).map _)
  | fourOctetAs asn4 => exact .beU8_bind _ 65 ((FourOctetAs.fromWire_reads asn4).map _)
  | extendedNextHopEncoding encodings =>
      have same : (1 + 6 * encodings.length).toUInt8 - 1 = (6 * encodings.length).toUInt8 := by
        simp [Nat.toUInt8_eq, UInt8.ofNat_add]
      rw [write, same]
      exact .beU8_bind _ 5 ((ExtendedNextHopEncodingCapability.fromWire_reads readable).map _)
  | experimental code value =>
      obtain ⟨code, defined⟩ := code
      rw [write, len_sub]
      refine .beU8_bind _ code ?_
      rw [valueFromWire_of_unknown (isKnown_of_experimental defined), dif_pos defined]
      exact (Reads.countU8 _ readable).map _
  | unrecognized code value =>
      obtain ⟨unknown, unreserved, short⟩ := readable
      rw [write, len_sub]
      refine .beU8_bind _ code ?_
      rw [valueFromWire_of_unknown unknown, dif_neg (by simp [unreserved])]
      exact (Reads.countU8 _ short).map _

end BgpCapability

/-! ## What is read -/

theorem GracefulRestartCapability.fromWire_yields :
    Yields GracefulRestartCapability.fromWire fun value =>
      value.time.toNat < 4096 ∧ 2 + 4 * value.addressFamilies.length < 256 := by
  refine (Yields.lengthU8 _).bind fun paramsBuf short => .within fun value left parsed => ?_
  obtain ⟨header, later, first, parsed⟩ := ok_of_bind parsed
  obtain ⟨families, _, looped, done⟩ := ok_of_bind parsed
  obtain ⟨rfl, -⟩ := Prod.mk.inj (Except.ok.inj done)
  have taken : later.length + 2 ≤ paramsBuf.length :=
    Consumes.beU16 _ _ _ _ first
  have bound := tillEmpty_length GracefulRestartAddressFamily.fromWire_consumes looped
  refine ⟨?_, by dsimp only; omega⟩
  rw [UInt16.toNat_and]
  exact Nat.lt_succ_of_le Nat.and_le_right

theorem AddPath.fromWire_yields :
    Yields AddPath.fromWire fun families => 4 * families.length < 256 := by
  refine (Yields.lengthU8 _).bind fun paramsBuf short => .within fun families left looped => ?_
  have bound := tillEmpty_length AddPathAddressFamily.fromWire_consumes looped
  omega

theorem ExtendedNextHopEncodingCapability.fromWire_yields :
    Yields ExtendedNextHopEncodingCapability.fromWire fun encodings =>
      6 * encodings.length < 256 := by
  refine (Yields.lengthU8 _).bind fun encodingsBuf short => .within fun encodings left looped => ?_
  have bound := tillEmpty_length ExtendedNextHopEncoding.fromWire_consumes looped
  omega

namespace BgpCapability

/-- A capability that a parser may return. -/
def Parsed (capability : BgpCapability) : Prop :=
  capability.Readable ∨ ∃ labels, capability = multipleLabels labels

theorem map_parsed {α : Type} {p : ByteParser BgpCapabilityParsingError α} {f : α → BgpCapability}
    (h : Yields p fun value => (f value).Readable) : Yields (f <$> p) Parsed :=
  .map fun _ _ _ parsed => .inl (h _ _ _ parsed)

theorem flagFromWire_yields (err : UInt8 → BgpCapabilityParsingError) {capability : BgpCapability}
    (readable : capability.Readable) : Yields (flagFromWire err capability) Parsed :=
  (Yields.any _).bind fun _ _ => .pure (.inl readable)

theorem valueFromWire_yields (code : UInt8) : Yields (valueFromWire code) Parsed := by
  by_cases known : IsKnown code = true
  · rcases isKnown_iff.mp known with rfl | rfl | rfl | rfl | rfl | rfl | rfl | rfl | rfl | rfl | rfl
    · exact map_parsed fun _ _ _ _ => trivial
    · exact flagFromWire_yields .invalidRouteRefreshLength trivial
    · exact map_parsed ExtendedNextHopEncodingCapability.fromWire_yields
    · exact flagFromWire_yields .invalidExtendedMessageLength trivial
    · exact .map fun _ labels _ _ => .inr ⟨labels, rfl⟩
    · exact map_parsed fun _ _ _ _ => trivial
    · exact map_parsed GracefulRestartCapability.fromWire_yields
    · exact map_parsed fun _ _ _ _ => trivial
    · exact map_parsed AddPath.fromWire_yields
    · exact flagFromWire_yields .invalidEnhancedRouteRefreshLength trivial
    · exact flagFromWire_yields .invalidRouteRefreshLength trivial
  · have unknown := Bool.eq_false_iff.mpr known
    rw [valueFromWire_of_unknown unknown]
    split
    · exact map_parsed (.countU8 _)
    · rename_i unreserved
      refine map_parsed fun buf value rest parsed => ?_
      exact ⟨unknown, Bool.eq_false_iff.mpr unreserved, Yields.countU8 _ _ _ _ parsed⟩

/-- Whatever is read can be written and read again, but for labels. -/
theorem fromWire_yields : Yields fromWire Parsed :=
  (Yields.any _).bind fun code _ => valueFromWire_yields code

/-- An echo says what it answers: a capability that was read and is written again is read the
    same by the other side. -/
theorem echo_reads {capability : BgpCapability} {buf rest : List UInt8}
    (parsed : fromWire buf = .ok (capability, rest))
    (unlabeled : ∀ labels, capability ≠ multipleLabels labels) :
    Reads fromWire capability.write capability.received :=
  fromWire_reads ((fromWire_yields _ _ _ parsed).resolve_right fun ⟨labels, same⟩ =>
    unlabeled labels same)

/-- Who offers to send and to receive paths is answered by an offer to receive alone. -/
theorem addPath_echo :
    Reads fromWire (addPath [⟨.ipv4Unicast, true, true⟩]).write
      (addPath [⟨.ipv4Unicast, false, true⟩]) :=
  echo_reads (show fromWire [69, 4, 0, 1, 1, 3] =
    .ok (addPath [⟨.ipv4Unicast, true, true⟩], []) from rfl) (by rintro _ ⟨⟩)

/-! ## Lengths -/

def IsLabels : BgpCapability → Bool
  | multipleLabels _ => true
  | _ => false

/-- Labels are written without their length, which counts all the same. -/
theorem length_write (capability : BgpCapability) :
    capability.write.length + (if capability.IsLabels then 1 else 0) = capability.len := by
  cases capability with
  | gracefulRestart value =>
      have size := length_flatMap GracefulRestartAddressFamily.length_write value.addressFamilies
      simp [write, len, valueLen, IsLabels, GracefulRestartCapability.write, size]
      omega
  | addPath families =>
      have size := length_flatMap AddPathAddressFamily.length_write families
      simp [write, len, valueLen, IsLabels, size]
      omega
  | extendedNextHopEncoding encodings =>
      have size := length_flatMap ExtendedNextHopEncoding.length_write encodings
      simp [write, len, valueLen, IsLabels, size]
      omega
  | multipleLabels labels =>
      have size := length_flatMap MultipleLabel.length_write labels
      simp [write, len, valueLen, IsLabels, size]
      omega
  | experimental code value | unrecognized code value =>
      simp [write, len, valueLen, IsLabels]
      omega
  | _ => simp [write, len, valueLen, IsLabels]

theorem length_write_of_readable {capability : BgpCapability} (readable : capability.Readable) :
    capability.write.length = capability.len := by
  have size := capability.length_write
  cases capability with
  | multipleLabels labels => exact readable.elim
  | _ => exact size

/-! ## Labels -/

theorem fromAfiSafi_afi {afi : UInt16} {safi : UInt8} {addressType : AddressType}
    (known : AddressType.fromAfiSafi afi safi = some addressType) :
    afi.toNat = 1 ∨ afi.toNat = 2 ∨ afi.toNat = 25 ∨ afi.toNat = 16388 := by
  rw [AddressType.fromAfiSafi] at known
  split at known <;> first | cases known; done | simp [*]

/-- No family has the number that a length octet makes of its first octets. -/
theorem fromAfiSafi_shifted {addressType : AddressType} {count : ℕ} (some_ : 0 < count)
    (short : 4 * count < 256) {afi : UInt16}
    (shifted : afi.toNat = 4 * count * 256 + addressType.addressFamily.toNat / 256) (safi : UInt8) :
    AddressType.fromAfiSafi afi safi = none := by
  cases known : AddressType.fromAfiSafi afi safi with
  | none => rfl
  | some other =>
      have high : addressType.addressFamily.toNat / 256 = 0 ∨
          addressType.addressFamily.toNat / 256 = 64 := by
        cases addressType <;> decide
      have numbers := fromAfiSafi_afi known
      omega

theorem addressTypeFromWire_unknown (wrong : FamilyParsingError → BgpCapabilityParsingError)
    {afi : UInt16} (unknown : ∀ safi, AddressType.fromAfiSafi afi safi = none) (safi : UInt8)
    (rest : List UInt8) :
    ∃ error, addressTypeFromWire wrong (toBigEndian 2 afi.toNat ++ ([safi] ++ rest)) =
      .error (.error (wrong error)) := by
  by_cases family : AddressFamily.isDefined afi = true
  · rw [addressTypeFromWire, (afiFromWire_reads family).then_eq]
    by_cases subsequent : SubsequentAddressFamily.isDefined safi = true
    · refine ⟨.addressTypeError afi safi, ?_⟩
      rw [(safiFromWire_reads (.beU8 _ safi) subsequent).then_eq _ rest, addressTypeOf, unknown]
      rfl
    · refine ⟨.subsequentAddressFamilyError safi, bind_of_error ?_ _⟩
      rw [safiFromWire, (Reads.beU8 _ safi).then_eq _ rest, if_neg subsequent]
      rfl
  · refine ⟨.addressFamilyError afi, bind_of_error ?_ _⟩
    rw [afiFromWire, (Reads.beU16 _ afi).then_eq, if_neg family]
    rfl

/-- Labels with a length in front, as other speakers write them, are an error. -/
theorem labels_rejected {label : MultipleLabel} {labels : List MultipleLabel}
    (short : 4 * (label :: labels).length < 256) (rest : List UInt8) :
    ∃ error, fromWire (8 :: (4 * (label :: labels).length).toUInt8 ::
      ((label :: labels).flatMap MultipleLabel.write ++ rest)) =
        .error (.error (.multipleLabelError error)) := by
  have many : 0 < (label :: labels).length := Nat.succ_pos _
  generalize (label :: labels).length = count at short many ⊢
  obtain ⟨addressType, entries⟩ := label
  have family : addressType.addressFamily.toNat < 65536 := addressType.addressFamily.toNat_lt
  -- The length and the first octet of the family are read as the family.
  obtain ⟨afi, shifted⟩ : ∃ afi : UInt16,
      afi.toNat = 4 * count * 256 + addressType.addressFamily.toNat / 256 :=
    ⟨UInt16.ofNat _, UInt16.toNat_ofNat_of_lt' (by rw [UInt16.size]; omega)⟩
  have octets : toBigEndian 2 afi.toNat =
      [(4 * count).toUInt8, (addressType.addressFamily.toNat / 256).toUInt8] := by
    have front : afi.toNat / 256 = 4 * count := by omega
    have back : afi.toNat.toUInt8 = (addressType.addressFamily.toNat / 256).toUInt8 := by
      apply UInt8.toNat_inj.mp
      rw [Nat.toUInt8_eq, UInt8.toNat_ofNat', Nat.toUInt8_eq, UInt8.toNat_ofNat', shifted]
      omega
    rw [toBigEndian, toBigEndian, toBigEndian, front, back]
    rfl
  obtain ⟨error, rejected⟩ := addressTypeFromWire_unknown .multipleLabelError
    (fromAfiSafi_shifted many short shifted) addressType.addressFamily.toNat.toUInt8
    (addressType.subsequentAddressFamily :: entries ::
      (labels.flatMap MultipleLabel.write ++ rest))
  rw [octets] at rejected
  refine ⟨error, ?_⟩
  have looped : tillEmpty MultipleLabel.fromWire ((4 * count).toUInt8 ::
      ((⟨addressType, entries⟩ :: labels : List MultipleLabel).flatMap MultipleLabel.write ++
        rest)) = .error (.error (.multipleLabelError error)) :=
    tillEmpty_of_error (bind_of_error rejected _)
  exact ((Reads.beU8 _ 8).then_eq valueFromWire _).trans
    (bind_of_error looped fun labels => pure (multipleLabels labels))

theorem ipv4_labels_rejected :
    ∃ error, fromWire [8, 4, 0, 1, 1, 2] = .error (.error (.multipleLabelError error)) :=
  @labels_rejected ⟨.ipv4Unicast, 2⟩ [] (by decide) []

end BgpCapability

end Erez.Speaker
