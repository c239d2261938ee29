import Erez.Daemon.Bgp
import Erez.Lib.ByteParser

/-! # Unicast routes on the wire

A route is an optional path identifier, a prefix length and as many octets as the
prefix needs. Whether the identifier is there is not in the bytes: the decoder is
told. Errors keep the nesting of the decoders they come from; the position in the
message that they also carry is left out.
-/

namespace Erez.Daemon

open Erez.Lib ByteParser

/-! ## Errors -/

/-- What the `complete` parsers report. -/
inductive ErrorKind where
  | eof
  deriving DecidableEq

inductive Ipv4PrefixParsingError where
  | nomError (kind : ErrorKind)
  | invalidIpv4PrefixLen (prefixLen : UInt8)
  deriving DecidableEq

inductive Ipv6PrefixParsingError where
  | nomError (kind : ErrorKind)
  | invalidIpv6PrefixLen (prefixLen : UInt8)
  deriving DecidableEq

inductive Ipv4UnicastParsingError where
  | ipv4PrefixError (error : Ipv4PrefixParsingError)
  | invalidUnicastNetwork (net : Ipv4Net)
  deriving DecidableEq

inductive Ipv6UnicastParsingError where
  | ipv6PrefixError (error : Ipv6PrefixParsingError)
  | invalidUnicastNetwork (net : Ipv6Net)
  deriving DecidableEq

inductive Ipv4UnicastAddressParsingError where
  | nomError (kind : ErrorKind)
  | ipv4UnicastError (error : Ipv4UnicastParsingError)
  deriving DecidableEq

inductive Ipv6UnicastAddressParsingError where
  | nomError (kind : ErrorKind)
  | ipv6UnicastError (error : Ipv6UnicastParsingError)
  deriving DecidableEq

/-! ## Decoding -/

/-- The octets a prefix of this length takes. -/
def prefixSize (prefixLen : UInt8) : ℕ :=
  if prefixLen ≥ 255 - 7 then 255 else (prefixLen.toNat + 7) / 8

/-- The octets read, and zeros for the rest of the address. -/
def zeroFill (width : ℕ) (octets : List UInt8) : Vector UInt8 width :=
  Vector.ofFn fun i => octets.getD i 0

section Families

variable {ε δ Net Unicast Address : Type}

/-- `from_wire` of a prefix. -/
def netFromWire (width : ℕ) (new? : Vector UInt8 width → UInt8 → Option Net) (eof : ε)
    (invalid : UInt8 → ε) : ByteParser ε Net := do
  let prefixLen ← beU8 eof
  let octets ← take eof (min (prefixSize prefixLen) width)
  match new? (zeroFill width octets) prefixLen with
  | some net => pure net
  | none => fail (invalid prefixLen)

/-- `from_wire` of a unicast prefix. -/
def unicastFromWire (net : ByteParser ε Net) (fromNet : Net → Option Unicast) (prefixError : ε → δ)
    (invalid : Net → δ) : ByteParser δ Unicast := do
  let net ← net.mapErr prefixError
  match fromNet net with
  | some network => pure network
  | none => fail (invalid net)

/-- The path identifier is there when Add-Path is on. -/
def pathIdFromWire (eof : ε) (addPath : Bool) : ByteParser ε PathId :=
  if addPath then some <$> beU32 eof else pure none

/-- `from_wire` of a route. -/
def addressFromWire (unicast : ByteParser ε Unicast) (new : PathId → Unicast → Address) (eof : δ)
    (unicastError : ε → δ) (addPath : Bool) : ByteParser δ Address := do
  let pathId ← pathIdFromWire eof addPath
  let network ← unicast.mapErr unicastError
  pure (new pathId network)

end Families

def Ipv4Unicast.fromNet (net : Ipv4Net) : Option Ipv4Unicast :=
  if unicast : net.IsUnicast then some ⟨net, unicast⟩ else none

def Ipv6Unicast.fromNet (net : Ipv6Net) : Option Ipv6Unicast :=
  if unicast : net.IsUnicast then some ⟨net, unicast⟩ else none

def Ipv4Net.fromWire : ByteParser Ipv4PrefixParsingError Ipv4Net :=
  netFromWire 4 (fun octets => Ipv4Net.new? ⟨octets⟩) (.nomError .eof) .invalidIpv4PrefixLen

def Ipv6Net.fromWire : ByteParser Ipv6PrefixParsingError Ipv6Net :=
  netFromWire 16 (fun octets => Ipv6Net.new? ⟨octets⟩) (.nomError .eof) .invalidIpv6PrefixLen

def Ipv4Unicast.fromWire : ByteParser Ipv4UnicastParsingError Ipv4Unicast :=
  unicastFromWire Ipv4Net.fromWire Ipv4Unicast.fromNet .ipv4PrefixError .invalidUnicastNetwork

def Ipv6Unicast.fromWire : ByteParser Ipv6UnicastParsingError Ipv6Unicast :=
  unicastFromWire Ipv6Net.fromWire Ipv6Unicast.fromNet .ipv6PrefixError .invalidUnicastNetwork

def Ipv4UnicastAddress.fromWire (addPath : Bool) :
    ByteParser Ipv4UnicastAddressParsingError Ipv4UnicastAddress :=
  addressFromWire Ipv4Unicast.fromWire .mk (.nomError .eof) .ipv4UnicastError addPath

def Ipv6UnicastAddress.fromWire (addPath : Bool) :
    ByteParser Ipv6UnicastAddressParsingError Ipv6UnicastAddress :=
  addressFromWire Ipv6Unicast.fromWire .mk (.nomError .eof) .ipv6UnicastError addPath

/-! ## Encoding -/

/-- The netmask of one octet, of which the first `len` bits are network bits. -/
def octetMask (len : ℕ) : UInt8 :=
  (256 - 2 ^ (8 - len)).toUInt8

def maskOctets {width : ℕ} (octets : Vector UInt8 width) (len : ℕ) : Vector UInt8 width :=
  octets.mapIdx fun i octet => octet &&& octetMask (len - 8 * i)

/-- The address of a network: the prefix with its host bits cleared. -/
def Ipv4Net.networkAddr (net : Ipv4Net) : Ipv4Addr :=
  ⟨maskOctets net.addr.octets net.prefixLen.toNat⟩

def Ipv6Net.networkAddr (net : Ipv6Net) : Ipv6Addr :=
  ⟨maskOctets net.addr.octets net.prefixLen.toNat⟩

def Ipv4Net.Canonical (net : Ipv4Net) : Prop :=
  net.networkAddr = net.addr

def Ipv6Net.Canonical (net : Ipv6Net) : Prop :=
  net.networkAddr = net.addr

instance (net : Ipv4Net) : Decidable net.Canonical :=
  inferInstanceAs (Decidable (_ = _))

instance (net : Ipv6Net) : Decidable net.Canonical :=
  inferInstanceAs (Decidable (_ = _))

def roundLen (len : UInt8) : ℕ :=
  (len.toNat + 7) / 8

def netWrite {width : ℕ} (prefixLen : UInt8) (octets : Vector UInt8 width) : List UInt8 :=
  prefixLen :: octets.toList.take (roundLen prefixLen)

def pathIdWrite : PathId → List UInt8
  | some pathId => toBigEndian 4 pathId.toNat
  | none => []

def Ipv4Unicast.write (network : Ipv4Unicast) : List UInt8 :=
  netWrite network.address.prefixLen network.address.networkAddr.octets

def Ipv6Unicast.write (network : Ipv6Unicast) : List UInt8 :=
  netWrite network.address.prefixLen network.address.networkAddr.octets

def Ipv4UnicastAddress.write (nlri : Ipv4UnicastAddress) : List UInt8 :=
  pathIdWrite nlri.pathId ++ nlri.network.write

def Ipv6UnicastAddress.write (nlri : Ipv6UnicastAddress) : List UInt8 :=
  pathIdWrite nlri.pathId ++ nlri.network.write

/-! ## Decoding what was encoded -/

/-- A canonical address is zero past its prefix. -/
private theorem canonical_octet {width len : ℕ} {octets : Vector UInt8 width}
    (canonical : maskOctets octets len = octets) {i : ℕ} (bound : i < width)
    (past : (len + 7) / 8 ≤ i) : octets[i] = 0 := by
  have masked : (maskOctets octets len)[i] = octets[i] &&& octetMask (len - 8 * i) :=
    Vector.getElem_mapIdx ..
  have outside : len - 8 * i = 0 := by omega
  have zero : octetMask 0 = 0 := rfl
  rw [outside, zero, UInt8.and_zero] at masked
  simpa only [canonical] using masked

theorem zeroFill_take {width len : ℕ} {octets : Vector UInt8 width}
    (canonical : maskOctets octets len = octets) :
    zeroFill width (octets.toList.take ((len + 7) / 8)) = octets := by
  apply Vector.ext
  intro i bound
  have size : i < octets.toList.length := by simpa using bound
  rw [zeroFill, Vector.getElem_ofFn, List.getD_eq_getElem?_getD, List.getElem?_take]
  split
  · rw [List.getElem?_eq_getElem size]
    simp
  · rename_i past
    exact (canonical_octet canonical bound (not_lt.mp past)).symm

theorem prefixSize_of_le {prefixLen : UInt8} {width : ℕ} (h : prefixLen.toNat ≤ 8 * width)
    (small : width ≤ 16) : min (prefixSize prefixLen) width = roundLen prefixLen := by
  have short : ¬ prefixLen ≥ 255 - 7 := by
    rw [ge_iff_le, UInt8.le_iff_toNat_le]
    change ¬ 248 ≤ prefixLen.toNat
    omega
  rw [prefixSize, if_neg short, roundLen]
  omega

section Families

variable {ε δ Net Unicast Address : Type}

/-- The prefix of a canonical network is read back with the octets it left out. -/
theorem netFromWire_reads {width : ℕ} {new? : Vector UInt8 width → UInt8 → Option Net} {eof : ε}
    {invalid : UInt8 → ε} {octets : Vector UInt8 width} {prefixLen : UInt8} {net : Net}
    (fits : prefixLen.toNat ≤ 8 * width) (small : width ≤ 16)
    (canonical : maskOctets octets prefixLen.toNat = octets)
    (built : new? octets prefixLen = some net) :
    Reads (netFromWire width new? eof invalid) (netWrite prefixLen octets) net := by
  have size : (octets.toList.take (roundLen prefixLen)).length =
      min (prefixSize prefixLen) width := by
    rw [prefixSize_of_le fits small, List.length_take, Vector.length_toList, roundLen]
    omega
  have filled : zeroFill width (octets.toList.take (roundLen prefixLen)) = octets :=
    zeroFill_take canonical
  refine Reads.beU8_bind eof prefixLen ?_
  rw [← List.append_nil (octets.toList.take _)]
  refine Reads.bind (Reads.take eof size) ?_
  rw [filled, built]
  exact Reads.pure net

theorem unicastFromWire_reads {parser : ByteParser ε Net} {fromNet : Net → Option Unicast}
    {prefixError : ε → δ} {invalid : Net → δ} {bytes : List UInt8} {net : Net} {network : Unicast}
    (read : Reads parser bytes net) (accepted : fromNet net = some network) :
    Reads (unicastFromWire parser fromNet prefixError invalid) bytes network := by
  rw [← List.append_nil bytes]
  refine Reads.bind (read.mapErr prefixError) ?_
  rw [accepted]
  exact Reads.pure network

theorem addressFromWire_reads {parser : ByteParser ε Unicast} {new : PathId → Unicast → Address}
    {eof : δ} {unicastError : ε → δ} {bytes : List UInt8} {network : Unicast}
    (read : Reads parser bytes network) (pathId : UInt32) :
    Reads (addressFromWire parser new eof unicastError true) (pathIdWrite (some pathId) ++ bytes)
      (new (some pathId) network) := by
  rw [← List.append_nil bytes]
  refine Reads.bind ((Reads.beU32 eof pathId).map some) ?_
  exact Reads.bind (read.mapErr unicastError) (Reads.pure _)

/-- Without Add-Path no route gets a path identifier. -/
theorem addressFromWire_pathId {parser : ByteParser ε Unicast} {new : PathId → Unicast → Address}
    {eof : δ} {unicastError : ε → δ} {buf rest : List UInt8} {nlri : Address}
    (h : addressFromWire parser new eof unicastError false buf = .ok (nlri, rest)) :
    ∃ network, nlri = new none network := by
  obtain ⟨pathId, left, absent, parsed⟩ := ok_of_bind h
  obtain ⟨network, left, -, built⟩ := ok_of_bind parsed
  obtain ⟨rfl, -⟩ := Prod.mk.inj (Except.ok.inj absent)
  obtain ⟨rfl, -⟩ := Prod.mk.inj (Except.ok.inj built)
  exact ⟨network, rfl⟩

/-! Every decoder takes at least the length octet, so the loop over the routes of an
attribute ends. -/

theorem netFromWire_consumes {width : ℕ} {new? : Vector UInt8 width → UInt8 → Option Net} {eof : ε}
    {invalid : UInt8 → ε} : Consumes 1 (netFromWire width new? eof invalid) := by
  refine Consumes.bind (k := 0) (((Consumes.take eof 1).map _).map _) fun prefixLen => ?_
  refine (Consumes.bind (k := 0) (Consumes.take eof _) fun octets => ?_).mono (Nat.zero_le _)
  cases new? (zeroFill width octets) prefixLen with
  | some net => exact Consumes.pure net
  | none => exact Consumes.fail 0 _

theorem unicastFromWire_consumes {parser : ByteParser ε Net} {fromNet : Net → Option Unicast}
    {prefixError : ε → δ} {invalid : Net → δ} (h : Consumes 1 parser) :
    Consumes 1 (unicastFromWire parser fromNet prefixError invalid) := by
  refine Consumes.bind (k := 0) (h.mapErr prefixError) fun net => ?_
  cases fromNet net with
  | some network => exact Consumes.pure network
  | none => exact Consumes.fail 0 _

theorem addressFromWire_consumes {parser : ByteParser ε Unicast} {new : PathId → Unicast → Address}
    {eof : δ} {unicastError : ε → δ} (h : Consumes 1 parser) (addPath : Bool) :
    Consumes 1 (addressFromWire parser new eof unicastError addPath) := by
  have pathId : Consumes 0 (pathIdFromWire eof addPath) := by
    cases addPath with
    | true => exact (((Consumes.take eof 4).map _).map _ |>.map _).mono (Nat.zero_le _)
    | false => exact Consumes.pure none
  refine Consumes.bind (j := 0) (k := 1) pathId fun pathId => ?_
  exact Consumes.bind (k := 0) (h.mapErr unicastError) fun network => Consumes.pure _

end Families

theorem Ipv4UnicastAddress.fromWire_consumes (addPath : Bool) :
    Consumes 1 (Ipv4UnicastAddress.fromWire addPath) :=
  addressFromWire_consumes (unicastFromWire_consumes netFromWire_consumes) addPath

theorem Ipv6UnicastAddress.fromWire_consumes (addPath : Bool) :
    Consumes 1 (Ipv6UnicastAddress.fromWire addPath) :=
  addressFromWire_consumes (unicastFromWire_consumes netFromWire_consumes) addPath

theorem Ipv4UnicastAddress.fromWire_reads {network : Ipv4Unicast}
    (canonical : network.address.Canonical) (pathId : UInt32) :
    Reads (Ipv4UnicastAddress.fromWire true) (Ipv4UnicastAddress.write ⟨some pathId, network⟩)
      ⟨some pathId, network⟩ := by
  have octets : network.address.networkAddr.octets = network.address.addr.octets :=
    congrArg Ipv4Addr.octets canonical
  have net : Reads Ipv4Net.fromWire network.write network.address := by
    rw [Ipv4Unicast.write, octets]
    exact netFromWire_reads network.address.valid (by decide) octets (dif_pos network.address.valid)
  exact addressFromWire_reads (unicastFromWire_reads net (dif_pos network.unicast)) pathId

theorem Ipv6UnicastAddress.fromWire_reads {network : Ipv6Unicast}
    (canonical : network.address.Canonical) (pathId : UInt32) :
    Reads (Ipv6UnicastAddress.fromWire true) (Ipv6UnicastAddress.write ⟨some pathId, network⟩)
      ⟨some pathId, network⟩ := by
  have octets : network.address.networkAddr.octets = network.address.addr.octets :=
    congrArg Ipv6Addr.octets canonical
  have net : Reads Ipv6Net.fromWire network.write network.address := by
    rw [Ipv6Unicast.write, octets]
    exact netFromWire_reads network.address.valid (by decide) octets (dif_pos network.address.valid)
  exact addressFromWire_reads (unicastFromWire_reads net (dif_pos network.unicast)) pathId

end Erez.Daemon
