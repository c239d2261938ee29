import Erez.Speaker.OpenCodec

/-! # Messages on the wire

A message is behind a marker, its length and its type. It is read from as many bytes as the
length says, all of them, and from no others.
-/

namespace Erez.Speaker

open Daemon Erez.Lib ByteParser

/-! ## NOTIFICATION -/

/-- The errors of one code, by their sub-codes. The data is all that follows. -/
structure SubCodes (α : Type) where
  make? : UInt8 → Option (List UInt8 → α)
  parts : α → UInt8 × List UInt8
  make?_parts : ∀ error, (make? (parts error).1).map (· (parts error).2) = some error

namespace SubCodes

variable {α : Type} (subCodes : SubCodes α)

def fromWire : ByteParser BgpMessageParsingError α := do
  let make ← mapRes (beU8 .bgpNotificationMessageParsingError) subCodes.make?
    fun _ => .bgpNotificationMessageParsingError
  make <$> remaining

def len (error : α) : ℕ :=
  1 + (subCodes.parts error).2.length

def write (error : α) : List UInt8 :=
  (subCodes.parts error).1 :: (subCodes.parts error).2

theorem fromWire_write (error : α) :
    subCodes.fromWire (subCodes.write error) = .ok (error, []) := by
  obtain ⟨make, named, made⟩ := Option.map_eq_some_iff.mp (subCodes.make?_parts error)
  have read := Reads.mapRes (fun _ => .bgpNotificationMessageParsingError)
    (Reads.beU8 BgpMessageParsingError.bgpNotificationMessageParsingError _) named
  refine (read.then_eq _ (subCodes.parts error).2).trans ?_
  exact congrArg (fun same => Except.ok (same, [])) made

theorem length_write (error : α) : (subCodes.write error).length = subCodes.len error :=
  Nat.add_comm _ _

end SubCodes

def MessageHeaderError.subCodes : SubCodes MessageHeaderError where
  make? subCode :=
    match subCode.toNat with
    | 0 => some .unspecific
    | 1 => some .connectionNotSynchronized
    | 2 => some .badMessageLength
    | 3 => some .badMessageType
    | _ => none
  parts
    | .unspecific value => (0, value)
    | .connectionNotSynchronized value => (1, value)
    | .badMessageLength value => (2, value)
    | .badMessageType value => (3, value)
  make?_parts error := by cases error <;> rfl

def OpenMessageError.subCodes : SubCodes OpenMessageError where
  make? subCode :=
    match subCode.toNat with
    | 0 => some .unspecific
    | 1 => some .unsupportedVersionNumber
    | 2 => some .badPeerAs
    | 3 => some .badBgpIdentifier
    | 4 => some .unsupportedOptionalParameter
    | 6 => some .unacceptableHoldTime
    | 7 => some .unsupportedCapability
    | 11 => some .roleMismatch
    | _ => none
  parts
    | .unspecific value => (0, value)
    | .unsupportedVersionNumber value => (1, value)
    | .badPeerAs value => (2, value)
    | .badBgpIdentifier value => (3, value)
    | .unsupportedOptionalParameter value => (4, value)
    | .unacceptableHoldTime value => (6, value)
    | .unsupportedCapability value => (7, value)
    | .roleMismatch value => (11, value)
  make?_parts error := by cases error <;> rfl

def UpdateMessageError.subCodes : SubCodes UpdateMessageError where
  make? subCode :=
    match subCode.toNat with
    | 0 => some .unspecific
    | 1 => some .malformedAttributeList
    | 2 => some .unrecognizedWellKnownAttribute
    | 3 => some .missingWellKnownAttribute
    | 4 => some .attributeFlagsError
    | 5 => some .attributeLengthError
    | 6 => some .invalidOriginAttribute
    | 8 => some .invalidNextHopAttribute
    | 9 => some .optionalAttributeError
    | 10 => some .invalidNetworkField
    | 11 => some .malformedAsPath
    | _ => none
  parts
    | .unspecific value => (0, value)
    | .malformedAttributeList value => (1, value)
    | .unrecognizedWellKnownAttribute value => (2, value)
    | .missingWellKnownAttribute value => (3, value)
    | .attributeFlagsError value => (4, value)
    | .attributeLengthError value => (5, value)
    | .invalidOriginAttribute value => (6, value)
    | .invalidNextHopAttribute value => (8, value)
    | .optionalAttributeError value => (9, value)
    | .invalidNetworkField value => (10, value)
    | .malformedAsPath value => (11, value)
  make?_parts error := by cases error <;> rfl

/-- Any sub-code will do. -/
def HoldTimerExpiredError.subCodes : SubCodes HoldTimerExpiredError where
  make? subCode := some (.unspecific subCode)
  parts
    | .unspecific subCode value => (subCode, value)
  make?_parts _ := rfl

def FiniteStateMachineError.subCodes : SubCodes FiniteStateMachineError where
  make? subCode :=
    match subCode.toNat with
    | 0 => some .unspecific
    | 1 => some .receiveUnexpectedMessageInOpenSentState
    | 2 => some .receiveUnexpectedMessageInOpenConfirmState
    | 3 => some .receiveUnexpectedMessageInEstablishedState
    | _ => none
  parts
    | .unspecific value => (0, value)
    | .receiveUnexpectedMessageInOpenSentState value => (1, value)
    | .receiveUnexpectedMessageInOpenConfirmState value => (2, value)
    | .receiveUnexpectedMessageInEstablishedState value => (3, value)
  make?_parts error := by cases error <;> rfl

def CeaseError.subCodes : SubCodes CeaseError where
  make? subCode :=
    match subCode.toNat with
    | 1 => some .maximumNumberOfPrefixesReached
    | 2 => some .administrativeShutdown
    | 3 => some .peerDeConfigured
    | 4 => some .administrativeReset
    | 5 => some .connectionRejected
    | 6 => some .otherConfigurationChange
    | 7 => some .connectionCollisionResolution
    | 8 => some .outOfResources
    | 9 => some .hardReset
    | 10 => some .bfdDown
    | _ => none
  parts
    | .maximumNumberOfPrefixesReached value => (1, value)
    | .administrativeShutdown value => (2, value)
    | .peerDeConfigured value => (3, value)
    | .administrativeReset value => (4, value)
    | .connectionRejected value => (5, value)
    | .otherConfigurationChange value => (6, value)
    | .connectionCollisionResolution value => (7, value)
    | .outOfResources value => (8, value)
    | .hardReset value => (9, value)
    | .bfdDown value => (10, value)
  make?_parts error := by cases error <;> rfl

def RouteRefreshError.subCodes : SubCodes RouteRefreshError where
  make? subCode :=
    match subCode.toNat with
    | 1 => some .invalidMessageLength
    | _ => none
  parts
    | .invalidMessageLength value => (1, value)
  make?_parts _ := rfl

namespace BgpNotificationMessage

def fromWire : ByteParser BgpMessageParsingError BgpNotificationMessage := do
  let code ← beU8 .bgpNotificationMessageParsingError
  match code.toNat with
  | 1 => messageHeaderError <$> MessageHeaderError.subCodes.fromWire
  | 2 => openMessageError <$> OpenMessageError.subCodes.fromWire
  | 3 => updateMessageError <$> UpdateMessageError.subCodes.fromWire
  | 4 => holdTimerExpiredError <$> HoldTimerExpiredError.subCodes.fromWire
  | 5 => finiteStateMachineError <$> FiniteStateMachineError.subCodes.fromWire
  | 6 => ceaseError <$> CeaseError.subCodes.fromWire
  | 7 => routeRefreshError <$> RouteRefreshError.subCodes.fromWire
  | _ => fail .bgpNotificationMessageParsingError

def len : BgpNotificationMessage → ℕ
  | messageHeaderError error => 1 + MessageHeaderError.subCodes.len error
  | openMessageError error => 1 + OpenMessageError.subCodes.len error
  | updateMessageError error => 1 + UpdateMessageError.subCodes.len error
  | holdTimerExpiredError error => 1 + HoldTimerExpiredError.subCodes.len error
  | finiteStateMachineError error => 1 + FiniteStateMachineError.subCodes.len error
  | ceaseError error => 1 + CeaseError.subCodes.len error
  | routeRefreshError error => 1 + RouteRefreshError.subCodes.len error

def write : BgpNotificationMessage → List UInt8
  | messageHeaderError error => 1 :: MessageHeaderError.subCodes.write error
  | openMessageError error => 2 :: OpenMessageError.subCodes.write error
  | updateMessageError error => 3 :: UpdateMessageError.subCodes.write error
  | holdTimerExpiredError error => 4 :: HoldTimerExpiredError.subCodes.write error
  | finiteStateMachineError error => 5 :: FiniteStateMachineError.subCodes.write error
  | ceaseError error => 6 :: CeaseError.subCodes.write error
  | routeRefreshError error => 7 :: RouteRefreshError.subCodes.write error

theorem length_write (message : BgpNotificationMessage) : message.write.length = message.len := by
  cases message <;> exact Nat.add_comm _ _ |>.trans (congrArg (1 + ·) (SubCodes.length_write _ _))

theorem fromWire_write (message : BgpNotificationMessage) :
    fromWire message.write = .ok (message, []) := by
  cases message <;>
    exact ((Reads.beU8 _ _).then_eq _ _).trans (map_of_ok (SubCodes.fromWire_write _ _) _)

end BgpNotificationMessage

/-! ## ROUTE-REFRESH -/

def RouteRefreshSubcode.toUInt8 : RouteRefreshSubcode → UInt8
  | normalRequest => 0
  | beginningOfRouteRefresh => 1
  | endOfRouteRefresh => 2

def RouteRefreshSubcode.ofUInt8? (operation : UInt8) : Option RouteRefreshSubcode :=
  match operation.toNat with
  | 0 => some normalRequest
  | 1 => some beginningOfRouteRefresh
  | 2 => some endOfRouteRefresh
  | _ => none

theorem RouteRefreshSubcode.ofUInt8?_toUInt8 (operation : RouteRefreshSubcode) :
    ofUInt8? operation.toUInt8 = some operation := by
  cases operation <;> rfl

namespace BgpRouteRefreshMessage

def fromWire : ByteParser BgpMessageParsingError BgpRouteRefreshMessage := do
  let wrong := BgpMessageParsingError.bgpRouteRefreshMessageParsingError
  let afi ← mapRes (beU16 wrong) (Option.guard AddressFamily.isDefined) fun _ => wrong
  let operation ← mapRes (beU8 wrong) RouteRefreshSubcode.ofUInt8? fun _ => wrong
  let safi ← mapRes (beU8 wrong) (Option.guard SubsequentAddressFamily.isDefined) fun _ => wrong
  match AddressType.fromAfiSafi afi safi with
  | some addressType => pure ⟨addressType, operation⟩
  | none => fail wrong

def len (_ : BgpRouteRefreshMessage) : ℕ := 4

def write (message : BgpRouteRefreshMessage) : List UInt8 :=
  toBigEndian 2 message.addressType.addressFamily.toNat ++
    [message.operationType.toUInt8, message.addressType.subsequentAddressFamily]

theorem length_write (message : BgpRouteRefreshMessage) : message.write.length = message.len := by
  simp [write, len]

theorem fromWire_reads (message : BgpRouteRefreshMessage) :
    Reads fromWire message.write message := by
  obtain ⟨family, subsequent⟩ := message.addressType.isDefined
  have afi : Option.guard AddressFamily.isDefined message.addressType.addressFamily =
      some message.addressType.addressFamily := by
    simp [Option.guard, family]
  have safi : Option.guard SubsequentAddressFamily.isDefined
      message.addressType.subsequentAddressFamily =
        some message.addressType.subsequentAddressFamily := by
    simp [Option.guard, subsequent]
  refine (Reads.mapRes _ (.beU16 _ _) afi).bind ?_
  change Reads _ ([message.operationType.toUInt8] ++
    [message.addressType.subsequentAddressFamily]) _
  refine (Reads.mapRes _ (.beU8 _ _) message.operationType.ofUInt8?_toUInt8).bind ?_
  refine (Reads.mapRes _ (.beU8 _ _) safi).bind_nil ?_
  rw [AddressType.fromAfiSafi_eq]
  exact .pure _

end BgpRouteRefreshMessage

/-! ## Messages -/

inductive BgpMessageType where
  | openMsg
  | update
  | notification
  | keepAlive
  | routeRefresh
  deriving DecidableEq

namespace BgpMessageType

def toUInt8 : BgpMessageType → UInt8
  | openMsg => 1
  | update => 2
  | notification => 3
  | keepAlive => 4
  | routeRefresh => 5

def ofUInt8? (messageType : UInt8) : Option BgpMessageType :=
  match messageType.toNat with
  | 1 => some openMsg
  | 2 => some update
  | 3 => some notification
  | 4 => some keepAlive
  | 5 => some routeRefresh
  | _ => none

theorem ofUInt8?_toUInt8 (messageType : BgpMessageType) :
    ofUInt8? messageType.toUInt8 = some messageType := by
  cases messageType <;> rfl

/-- The types that extended messages leave at 4096 octets. -/
def Limited (messageType : BgpMessageType) : Prop :=
  messageType = openMsg ∨ messageType = keepAlive

instance (messageType : BgpMessageType) : Decidable messageType.Limited :=
  inferInstanceAs (Decidable (_ ∨ _))

end BgpMessageType

/-- A message with what was ignored in it. The answer for an End-of-RIB of a family that the
    daemon does not route comes with the message. -/
structure ReadMessage where
  message : BgpMessage
  capabilityErrors : List BgpCapabilityParsingError := []
  pathAttrErrors : List PathAttributeParsingError := []
  otherEor : Option Daemon.AddressType := none

/-- `nonEmpty` is the error of nom for bytes that a message leaves of its length. -/
inductive FramingError where
  | nonEmpty
  | parsing (error : BgpMessageParsingError)
  deriving DecidableEq

/-- What the codec has from its context, and the codec of the body of an UPDATE: its parser, by
    the size of the AS numbers, and its serializer. -/
structure BgpParsingContext where
  failOnCapabilityError : Bool
  updateFromWire : Bool → ByteParser BgpUpdateMessageParsingError
    (BgpUpdateMessage × List PathAttributeParsingError × Option Daemon.AddressType)
  updateWrite : BgpUpdateMessage → List UInt8

namespace BgpMessage

def getType : BgpMessage → BgpMessageType
  | openMsg _ => .openMsg
  | update _ => .update
  | notification _ => .notification
  | keepAlive => .keepAlive
  | routeRefresh _ => .routeRefresh

def marker : List UInt8 := List.replicate 16 255

def markerFromWire : ByteParser BgpMessageParsingError Unit := do
  let header ← take (.nomError .eof) 16
  if header = marker then pure () else fail (.connectionNotSynchronized header)

/-- The length field, behind the marker. -/
def readLength (buf : List UInt8) : UInt16 :=
  (ofBigEndian ((buf.drop 16).take 2)).toUInt16

def typeFromWire (length : UInt16) :
    ByteParser BgpMessageParsingError (BgpMessageType × List UInt8) := do
  let messageType ← mapRes (beU8 (.nomError .eof)) BgpMessageType.ofUInt8?
    .undefinedBgpMessageType
  if messageType.Limited ∧ 4096 < length then fail (.badMessageLength length)
  else (messageType, ·) <$> remaining

/-- The type of a message and the octets behind it. -/
def parseBgpMessageLengthAndType :
    ByteParser BgpMessageParsingError (BgpMessageType × List UInt8) := do
  let length ← beU16 (.nomError .eof)
  if length < 19 then fail (.badMessageLength length)
  else do
    let buf ← take (.badMessageLength length) (length.toNat - 18)
    within buf (typeFromWire length)

section Context

variable (ctx : BgpParsingContext)

def bodyFromWire (asn4 : Bool) : BgpMessageType → ByteParser BgpMessageParsingError ReadMessage
  | .openMsg => (fun read => ⟨openMsg read.1, read.2, [], none⟩) <$>
      (BgpOpenMessage.fromWire ctx.failOnCapabilityError).mapErr .bgpOpenMessageParsingError
  | .update => (fun read => ⟨update read.1, [], read.2.1, read.2.2⟩) <$>
      (ctx.updateFromWire asn4).mapErr .bgpUpdateMessageParsingError
  | .notification => (⟨notification ·, [], [], none⟩) <$> BgpNotificationMessage.fromWire
  | .keepAlive => pure ⟨keepAlive, [], [], none⟩
  | .routeRefresh => (⟨routeRefresh ·, [], [], none⟩) <$> BgpRouteRefreshMessage.fromWire

/-- The whole of the body. -/
def wholeFromWire (asn4 : Bool) (messageType : BgpMessageType) :
    ByteParser FramingError ReadMessage := do
  let msg ← (bodyFromWire ctx asn4 messageType).mapErr .parsing
  let left ← remaining
  if left = [] then pure msg else fail .nonEmpty

def fromWire (asn4 : Bool) : ByteParser FramingError ReadMessage := do
  markerFromWire.mapErr .parsing
  let (messageType, buf) ← parseBgpMessageLengthAndType.mapErr .parsing
  within buf (wholeFromWire ctx asn4 messageType)

def bodyWrite : BgpMessage → List UInt8
  | openMsg message => message.write
  | update message => ctx.updateWrite message
  | notification message => message.write
  | keepAlive => []
  | routeRefresh message => message.write

/-- An UPDATE has the length of what it writes. -/
def bodyLen : BgpMessage → ℕ
  | openMsg message => message.len
  | update message => (ctx.updateWrite message).length
  | notification message => message.len
  | keepAlive => 0
  | routeRefresh message => message.len

def len (message : BgpMessage) : ℕ :=
  19 + bodyLen ctx message

def frame (message : BgpMessage) : List UInt8 :=
  marker ++ (toBigEndian 2 (message.len ctx).toUInt16.toNat ++
    (message.getType.toUInt8 :: message.bodyWrite ctx))

/-- Fails with a length that is too much for the type. -/
def write (message : BgpMessage) : Except ℕ (List UInt8) :=
  if message.getType.Limited ∧ 4096 < message.len ctx then .error (message.len ctx)
  else .ok (message.frame ctx)

end Context

end BgpMessage

/-! ## A message and the bytes behind it -/

section Frames

variable {ctx : BgpParsingContext}

namespace BgpMessage

theorem length_marker : marker.length = 16 := rfl

theorem rest_of_marker {buf rest : List UInt8} (enough : 16 ≤ buf.length)
    (parsed : markerFromWire buf = .ok ((), rest)) : rest = buf.drop 16 := by
  obtain ⟨header, left, taken, done⟩ := ok_of_bind parsed
  rw [take_of_le _ enough] at taken
  obtain ⟨rfl, rfl⟩ := Prod.mk.inj (Except.ok.inj taken)
  split at done
  · exact (Prod.mk.inj (Except.ok.inj done)).2.symm
  · cases done

theorem markerFromWire_settled {buf : List UInt8} (enough : 16 ≤ buf.length) :
    Settled markerFromWire buf := by
  refine (Settled.take _ enough).bind fun header rest _ => ?_
  split
  · exact .pure _ _
  · exact .fail _ _

theorem parseBgpMessageLengthAndType_settled {buf : List UInt8} (enough : 3 ≤ buf.length)
    (whole : (ofBigEndian (buf.take 2)).toUInt16.toNat ≤ buf.length + 16) :
    Settled parseBgpMessageLengthAndType buf := by
  have two : 2 ≤ buf.length := by omega
  refine Settled.bind (.map _ (.map _ (.take _ two))) fun length rest parsed => ?_
  rw [beU16_of_le _ two] at parsed
  obtain ⟨rfl, rfl⟩ := Prod.mk.inj (Except.ok.inj parsed)
  split
  · exact .fail _ _
  · refine (Settled.take _ ?_).bind fun _ _ _ => .within _ _ _
    rw [List.length_drop]
    omega

theorem fromWire_settled (asn4 : Bool) {buf : List UInt8} (enough : 19 ≤ buf.length)
    (whole : (readLength buf).toNat ≤ buf.length) : Settled (fromWire ctx asn4) buf := by
  refine (markerFromWire_settled (by omega)).mapErr _ |>.bind fun _ rest parsed => ?_
  obtain rfl := rest_of_marker (by omega) (ok_of_mapErr parsed)
  refine (parseBgpMessageLengthAndType_settled ?_ ?_).mapErr _ |>.bind fun _ _ _ => .within _ _ _
  · rw [List.length_drop]
    omega
  · rw [List.length_drop]
    exact whole.trans (by omega)

/-- A message that is read has the length of a header at least. -/
theorem length_of_fromWire {asn4 : Bool} {buf rest : List UInt8} {msg : ReadMessage}
    (enough : 19 ≤ buf.length) (parsed : fromWire ctx asn4 buf = .ok (msg, rest)) :
    19 ≤ (readLength buf).toNat := by
  obtain ⟨_, left, marked, parsed⟩ := ok_of_bind parsed
  obtain rfl := rest_of_marker (by omega) (ok_of_mapErr marked)
  obtain ⟨_, left, typed, -⟩ := ok_of_bind parsed
  obtain ⟨length, left, read, typed⟩ := ok_of_bind (ok_of_mapErr typed)
  rw [beU16_of_le _ (by rw [List.length_drop]; omega)] at read
  obtain ⟨rfl, rfl⟩ := Prod.mk.inj (Except.ok.inj read)
  split at typed
  · cases typed
  · rename_i long
    exact UInt16.le_iff_toNat_le.mp (UInt16.not_lt.mp long)

theorem readLength_append {buf : List UInt8} (enough : 19 ≤ buf.length) (more : List UInt8) :
    readLength (buf ++ more) = readLength buf := by
  have two : 2 ≤ (buf.drop 16).length := by
    rw [List.length_drop]
    omega
  rw [readLength, List.drop_append_of_le_length (by omega), List.take_append_of_le_length two,
    readLength]

end BgpMessage

/-! ## Messages that were written -/

theorem BgpOpenMessage.length_write {message : BgpOpenMessage}
    (readable : ∀ param ∈ message.params, param.Readable) :
    message.write.length = message.len := by
  rw [write_eq, List.length_append, List.length_cons, length_params readable]
  simp only [header, List.length_cons, List.length_append, length_toBigEndian,
    Vector.length_toList, len]
  omega

namespace BgpMessage

/-- The fields fit their places, and the body of an UPDATE is one that the context reads back. -/
def Sendable (ctx : BgpParsingContext) : BgpMessage → Prop
  | openMsg message => message.Acceptable ∧ message.paramsLen < 256
  | update message => (ctx.updateWrite message).length < 65517 ∧
      ∀ asn4, ctx.updateFromWire asn4 (ctx.updateWrite message) = .ok ((message, [], none), [])
  | notification message => message.len < 65517
  | keepAlive => True
  | routeRefresh _ => True

def asRead : BgpMessage → ReadMessage
  | openMsg message => ⟨openMsg message.received, [], [], none⟩
  | message => ⟨message, [], [], none⟩

theorem length_bodyWrite {message : BgpMessage} (sendable : message.Sendable ctx) :
    (message.bodyWrite ctx).length = message.bodyLen ctx := by
  cases message with
  | openMsg message => exact BgpOpenMessage.length_write sendable.1.readable
  | update message => rfl
  | notification message => exact message.length_write
  | keepAlive => rfl
  | routeRefresh message => exact message.length_write

theorem bodyLen_lt {message : BgpMessage} (sendable : message.Sendable ctx) :
    message.bodyLen ctx < 65517 ∧ (message.getType.Limited → message.bodyLen ctx ≤ 4077) := by
  cases message with
  | openMsg message =>
      have short := sendable.2
      have size : bodyLen ctx (openMsg message) = 10 + message.paramsLen := rfl
      omega
  | update message => exact ⟨sendable.1, by rintro (limited | limited) <;> cases limited⟩
  | notification message => exact ⟨sendable, by rintro (limited | limited) <;> cases limited⟩
  | keepAlive => exact ⟨Nat.succ_pos _, fun _ => Nat.zero_le _⟩
  | routeRefresh message =>
      have size : bodyLen ctx (routeRefresh message) = 4 := rfl
      exact ⟨by omega, by rintro (limited | limited) <;> cases limited⟩

theorem write_eq_frame {message : BgpMessage} (sendable : message.Sendable ctx) :
    message.write ctx = .ok (message.frame ctx) := by
  refine if_neg fun ⟨limited, long⟩ => ?_
  have short := (bodyLen_lt sendable).2 limited
  have size : message.len ctx = 19 + message.bodyLen ctx := rfl
  omega

theorem bodyFromWire_write (asn4 : Bool) {message : BgpMessage} (sendable : message.Sendable ctx) :
    bodyFromWire ctx asn4 message.getType (message.bodyWrite ctx) = .ok (message.asRead, []) := by
  cases message with
  | openMsg message =>
      have read := ((BgpOpenMessage.fromWire_reads ctx.failOnCapabilityError sendable.1
        sendable.2).mapErr BgpMessageParsingError.bgpOpenMessageParsingError) []
      rw [List.append_nil] at read
      exact map_of_ok read _
  | update message => exact map_of_ok (mapErr_of_ok (sendable.2 asn4) _) _
  | notification message => exact map_of_ok message.fromWire_write _
  | keepAlive => rfl
  | routeRefresh message =>
      have read := message.fromWire_reads []
      rw [List.append_nil] at read
      exact map_of_ok read _

theorem wholeFromWire_write (asn4 : Bool) {message : BgpMessage}
    (sendable : message.Sendable ctx) :
    wholeFromWire ctx asn4 message.getType (message.bodyWrite ctx) = .ok (message.asRead, []) :=
  bind_of_ok (mapErr_of_ok (bodyFromWire_write asn4 sendable) FramingError.parsing) _

theorem toNat_len {message : BgpMessage} (sendable : message.Sendable ctx) :
    ((message.len ctx).toUInt16).toNat = message.len ctx := by
  have short := (bodyLen_lt sendable).1
  have size : message.len ctx = 19 + message.bodyLen ctx := rfl
  exact UInt16.toNat_ofNat_of_lt' (by change _ < 65536; omega)

theorem length_frame {message : BgpMessage} (sendable : message.Sendable ctx) :
    (message.frame ctx).length = message.len ctx := by
  have size : message.len ctx = 19 + message.bodyLen ctx := rfl
  simp only [frame, marker, List.length_append, List.length_replicate, length_toBigEndian,
    List.length_cons, length_bodyWrite sendable]
  omega

theorem readLength_frame {message : BgpMessage} (sendable : message.Sendable ctx) :
    (readLength (message.frame ctx)).toNat = (message.frame ctx).length := by
  rw [length_frame sendable, ← toNat_len sendable]
  have field : ((message.frame ctx).drop 16).take 2 =
      toBigEndian 2 (message.len ctx).toUInt16.toNat := by
    rw [frame, List.drop_left' length_marker,
      List.take_left' (length_toBigEndian _ _)]
  rw [readLength, field, ofBigEndian_toBigEndian (UInt16.toNat_lt _), Nat.toUInt16_eq,
    UInt16.ofNat_toNat]

theorem typeFromWire_write {message : BgpMessage} (sendable : message.Sendable ctx) :
    typeFromWire (message.len ctx).toUInt16 (message.getType.toUInt8 :: message.bodyWrite ctx) =
      .ok ((message.getType, message.bodyWrite ctx), []) := by
  have code := Reads.mapRes BgpMessageParsingError.undefinedBgpMessageType
    (Reads.beU8 (.nomError .eof) _) message.getType.ofUInt8?_toUInt8
  have short : ¬ (message.getType.Limited ∧ 4096 < (message.len ctx).toUInt16) := by
    rintro ⟨limited, long⟩
    have few := (bodyLen_lt sendable).2 limited
    have size : message.len ctx = 19 + message.bodyLen ctx := rfl
    rw [UInt16.lt_iff_toNat_lt, toNat_len sendable] at long
    change 4096 < _ at long
    omega
  refine (code.then_eq _ (message.bodyWrite ctx)).trans ?_
  rw [if_neg short]
  rfl

theorem parseBgpMessageLengthAndType_write {message : BgpMessage}
    (sendable : message.Sendable ctx) :
    parseBgpMessageLengthAndType (toBigEndian 2 (message.len ctx).toUInt16.toNat ++
      (message.getType.toUInt8 :: message.bodyWrite ctx)) =
        .ok ((message.getType, message.bodyWrite ctx), []) := by
  have size : message.len ctx = 19 + message.bodyLen ctx := rfl
  have long : ¬ (message.len ctx).toUInt16 < 19 := by
    rw [UInt16.lt_iff_toNat_lt, toNat_len sendable]
    change ¬ _ < 19
    omega
  have part : (message.getType.toUInt8 :: message.bodyWrite ctx).length =
      (message.len ctx).toUInt16.toNat - 18 := by
    rw [List.length_cons, length_bodyWrite sendable, toNat_len sendable]
    omega
  refine ((Reads.beU16 _ _).then_eq _ _).trans ?_
  rw [if_neg long]
  have read := Reads.bind_nil
    (f := fun buf => within buf (typeFromWire (message.len ctx).toUInt16))
    (Reads.take (.badMessageLength (message.len ctx).toUInt16 : BgpMessageParsingError) part)
    (.within (typeFromWire_write sendable)) []
  rwa [List.append_nil] at read

theorem fromWire_frame (asn4 : Bool) {message : BgpMessage} (sendable : message.Sendable ctx) :
    fromWire ctx asn4 (message.frame ctx) = .ok (message.asRead, []) := by
  have marked : Reads markerFromWire marker () := by
    refine (Reads.take _ length_marker).bind_nil ?_
    rw [if_pos rfl]
    exact .pure ()
  refine ((marked.mapErr FramingError.parsing).then_eq _ _).trans ?_
  refine (bind_of_ok (mapErr_of_ok (parseBgpMessageLengthAndType_write sendable) _) _).trans ?_
  exact Reads.within (wholeFromWire_write asn4 sendable) []

end BgpMessage

end Frames

end Erez.Speaker
