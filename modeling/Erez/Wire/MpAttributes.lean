import Erez.Wire.Nlri

/-! # The multiprotocol attributes

`MP_REACH_NLRI` and `MP_UNREACH_NLRI` frame the routes of one address family.
Whether the routes carry path identifiers should follow from the capabilities of
the session, by address family; the local patch answers the question itself in
three of the four unicast branches. The branches of the other address families are
a parameter.
-/

namespace Erez.Daemon

open Erez.Lib ByteParser

/-! ## Address families -/

/-- The numbers `AddressFamily` has a name for. -/
def AddressFamily.isDefined (afi : UInt16) : Bool :=
  (1 ≤ afi && afi ≤ 31) || (16384 ≤ afi && afi ≤ 16399)

/-- The numbers `SubsequentAddressFamily` has a name for. -/
def SubsequentAddressFamily.isDefined (safi : UInt8) : Bool :=
  [1, 2, 4, 5, 6, 8, 9, 128, 129, 132, 133, 134, 140].contains safi ||
    (64 ≤ safi && safi ≤ 79) || (241 ≤ safi && safi ≤ 254)

inductive AddressType where
  | ipv4Unicast
  | ipv6Unicast
  | other (afi : UInt16) (safi : UInt8)
  deriving DecidableEq

namespace AddressType

def fromAfiSafi (afi : UInt16) (safi : UInt8) : AddressType :=
  if afi = 1 ∧ safi = 1 then ipv4Unicast
  else if afi = 2 ∧ safi = 1 then ipv6Unicast
  else other afi safi

end AddressType

/-- What the session negotiated, by address family. -/
abbrev AddPathMap := FiniteMap AddressType Bool

def AddPathMap.isOn (addPathMap : AddPathMap) (addrType : AddressType) : Bool :=
  addPathMap.get? addrType = some true

/-! ## Errors -/

inductive IpAddrParsingError where
  | invalidIpAddressLength (len : UInt8)
  deriving DecidableEq

inductive MpReachParsingError where
  | nomError (kind : ErrorKind)
  | undefinedAddressFamily (afi : UInt16)
  | undefinedSubsequentAddressFamily (safi : UInt8)
  | ipAddrError (addrType : AddressType) (error : IpAddrParsingError)
  | ipv4UnicastAddressError (error : Ipv4UnicastAddressParsingError)
  | ipv6UnicastAddressError (error : Ipv6UnicastAddressParsingError)
  | other
  deriving DecidableEq

inductive MpUnreachParsingError where
  | nomError (kind : ErrorKind)
  | undefinedAddressFamily (afi : UInt16)
  | undefinedSubsequentAddressFamily (safi : UInt8)
  | ipv4UnicastAddressError (error : Ipv4UnicastAddressParsingError)
  | ipv6UnicastAddressError (error : Ipv6UnicastAddressParsingError)
  | other
  deriving DecidableEq

/-! ## Decoding -/

/-- The branches of the address families that the daemon does not route. -/
structure OtherFamilies where
  reach : AddPathMap → AddressType → ByteParser MpReachParsingError Unit
  unreach : AddPathMap → AddressType → ByteParser MpUnreachParsingError Unit

section Framing

variable {ε α : Type}

/-- The length of an attribute is one octet, or two when its flags say so. -/
def attributeLength (eof : ε) (extendedLength : Bool) : ByteParser ε ℕ :=
  if extendedLength then UInt16.toNat <$> beU16 eof else UInt8.toNat <$> beU8 eof

/-- Decode the body of an attribute, and nothing behind it. -/
def framed (eof : ε) (extendedLength : Bool) (body : ByteParser ε α) : ByteParser ε α := do
  let mpBuf ← lengthData (attributeLength eof extendedLength)
  within mpBuf body

/-- The AFI and SAFI in front of the routes. -/
def addressType (eof : ε) (undefinedAfi : UInt16 → ε) (undefinedSafi : UInt8 → ε) :
    ByteParser ε AddressType := do
  let afi ← beU16 eof
  if AddressFamily.isDefined afi then
    let safi ← beU8 eof
    if SubsequentAddressFamily.isDefined safi then pure (.fromAfiSafi afi safi)
    else fail (undefinedSafi safi)
  else fail (undefinedAfi afi)

def ipv4Addr (eof : ε) : ByteParser ε Ipv4Addr :=
  (fun octets => ⟨zeroFill 4 octets⟩) <$> take eof 4

def ipv6Addr (eof : ε) : ByteParser ε Ipv6Addr :=
  (fun octets => ⟨zeroFill 16 octets⟩) <$> take eof 16

end Framing

namespace MpReach

def eof : MpReachParsingError := .nomError .eof

def parseIp4OrIpv6NextHop (addrType : AddressType) :
    ByteParser MpReachParsingError (IpAddr × Option Ipv6Addr) := do
  let nextHopLen ← beU8 eof
  if nextHopLen = 4 then
    let nextHop ← ipv4Addr eof
    pure (.v4 nextHop, none)
  else if nextHopLen = 16 then
    let nextHop ← ipv6Addr eof
    pure (.v6 nextHop, none)
  else if nextHopLen = 32 then
    let nextHop ← ipv6Addr eof
    let nextHopLocal ← ipv6Addr eof
    pure (.v6 nextHop, some nextHopLocal)
  else fail (.ipAddrError addrType (.invalidIpAddressLength nextHopLen))

/-- The attribute without its length. -/
def body (other : OtherFamilies) (addPathMap : AddPathMap) :
    ByteParser MpReachParsingError MpReach := do
  match ← addressType eof .undefinedAddressFamily .undefinedSubsequentAddressFamily with
  | .ipv4Unicast =>
      let (nextHop, nextHopLocal) ← parseIp4OrIpv6NextHop .ipv4Unicast
      let _ ← beU8 eof
      let nlri ← tillEmpty ((Ipv4UnicastAddress.fromWire true).mapErr .ipv4UnicastAddressError)
      pure (.ipv4Unicast nextHop nextHopLocal nlri)
  | .ipv6Unicast =>
      let nextHopLen ← beU8 eof
      let nextHopGlobal ← ipv6Addr eof
      let nextHopLocal ← if nextHopLen = 32 then some <$> ipv6Addr eof else pure none
      let _ ← beU8 eof
      -- Not recognised correctly by library, so the patch forces it.
      let nlri ← tillEmpty ((Ipv6UnicastAddress.fromWire true).mapErr .ipv6UnicastAddressError)
      pure (.ipv6Unicast nextHopGlobal nextHopLocal nlri)
  | addrType =>
      let () ← other.reach addPathMap addrType
      pure .other

def fromWire (other : OtherFamilies) (extendedLength : Bool) (addPathMap : AddPathMap) :
    ByteParser MpReachParsingError MpReach :=
  framed eof extendedLength (body other addPathMap)

end MpReach

namespace MpUnreach

def eof : MpUnreachParsingError := .nomError .eof

def body (other : OtherFamilies) (addPathMap : AddPathMap) :
    ByteParser MpUnreachParsingError MpUnreach := do
  match ← addressType eof .undefinedAddressFamily .undefinedSubsequentAddressFamily with
  | .ipv4Unicast =>
      let nlri ← tillEmpty ((Ipv4UnicastAddress.fromWire true).mapErr .ipv4UnicastAddressError)
      pure (.ipv4Unicast nlri)
  | .ipv6Unicast =>
      -- The one unicast branch that the patch leaves to the capabilities.
      let addPath := addPathMap.isOn .ipv6Unicast
      let nlri ← tillEmpty ((Ipv6UnicastAddress.fromWire addPath).mapErr .ipv6UnicastAddressError)
      pure (.ipv6Unicast nlri)
  | addrType =>
      let () ← other.unreach addPathMap addrType
      pure .other

def fromWire (other : OtherFamilies) (extendedLength : Bool) (addPathMap : AddPathMap) :
    ByteParser MpUnreachParsingError MpUnreach :=
  framed eof extendedLength (body other addPathMap)

end MpUnreach

/-! ## What the fields read -/

section Framing

variable {ε α : Type}

/-- The octets of the length field. -/
def lengthWidth (extendedLength : Bool) : ℕ :=
  if extendedLength then 2 else 1

/-- An attribute: the length of its body, and the body. -/
def frame (extendedLength : Bool) (body : List UInt8) : List UInt8 :=
  toBigEndian (lengthWidth extendedLength) body.length ++ body

/-- The body is no longer than its length field can say. -/
def Fits (extendedLength : Bool) (body : List UInt8) : Prop :=
  body.length < 256 ^ lengthWidth extendedLength

instance (extendedLength : Bool) (body : List UInt8) : Decidable (Fits extendedLength body) :=
  inferInstanceAs (Decidable (_ < _))

theorem attributeLength_reads (eof : ε) {extendedLength : Bool} {n : ℕ}
    (h : n < 256 ^ lengthWidth extendedLength) :
    Reads (attributeLength eof extendedLength) (toBigEndian (lengthWidth extendedLength) n) n := by
  cases extendedLength with
  | true =>
      have back : (n.toUInt16).toNat = n := UInt16.toNat_ofNat_of_lt' h
      have read := (Reads.beU16 eof n.toUInt16).map UInt16.toNat
      rwa [back] at read
  | false =>
      have back : (n.toUInt8).toNat = n := UInt8.toNat_ofNat_of_lt' h
      have read := (Reads.beU8 eof n.toUInt8).map UInt8.toNat
      rwa [back] at read

/-- An attribute is decoded when its body is, whatever the body leaves unread. -/
theorem framed_reads (eof : ε) {extendedLength : Bool} {body : ByteParser ε α}
    {bytes leftover : List UInt8} {value : α} (fits : Fits extendedLength bytes)
    (decoded : body bytes = .ok (value, leftover)) :
    Reads (framed eof extendedLength body) (frame extendedLength bytes) value := by
  rw [← List.append_nil (frame extendedLength bytes)]
  exact Reads.bind (Reads.lengthData (attributeLength_reads eof fits)) (Reads.within decoded)

theorem addressType_reads (eof : ε) (undefinedAfi : UInt16 → ε) (undefinedSafi : UInt8 → ε)
    (afi : UInt16) (safi : UInt8) (hafi : AddressFamily.isDefined afi)
    (hsafi : SubsequentAddressFamily.isDefined safi) :
    Reads (addressType eof undefinedAfi undefinedSafi) (toBigEndian 2 afi.toNat ++ [safi])
      (.fromAfiSafi afi safi) := by
  refine Reads.bind (Reads.beU16 eof afi) ?_
  rw [if_pos hafi, ← List.append_nil [safi]]
  refine Reads.bind (Reads.beU8 eof safi) ?_
  rw [if_pos hsafi]
  exact Reads.pure _

private theorem zeroFill_toList {width : ℕ} (octets : Vector UInt8 width) :
    zeroFill width octets.toList = octets := by
  apply Vector.ext
  intro i bound
  have size : i < octets.toList.length := by simpa using bound
  rw [zeroFill, Vector.getElem_ofFn, List.getD_eq_getElem?_getD, List.getElem?_eq_getElem size]
  simp

theorem ipv4Addr_reads (eof : ε) (addr : Ipv4Addr) :
    Reads (ipv4Addr eof) addr.octets.toList addr := by
  have read := (Reads.take eof (Vector.length_toList : addr.octets.toList.length = _)).map fun octets =>
    (⟨zeroFill 4 octets⟩ : Ipv4Addr)
  rwa [zeroFill_toList] at read

theorem ipv6Addr_reads (eof : ε) (addr : Ipv6Addr) :
    Reads (ipv6Addr eof) addr.octets.toList addr := by
  have read := (Reads.take eof (Vector.length_toList : addr.octets.toList.length = _)).map fun octets =>
    (⟨zeroFill 16 octets⟩ : Ipv6Addr)
  rwa [zeroFill_toList] at read

end Framing

end Erez.Daemon
