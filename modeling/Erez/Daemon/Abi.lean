import Erez.Lib.LongestPrefix

/-! # Addresses and prefixes shared with the eBPF programs

`IpAddr` and `IpNet` are the userspace types, `CIpv6Addr` and `CNlri` their
representation in the maps. IPv4 lives in the IPv4-mapped range of IPv6, so both
families share one 128-bit key space. A prefix keeps the host bits it was built
with; the trie only sees the first `prefix_len` bits.
-/

namespace Erez.Daemon

structure Ipv4Addr where
  octets : Vector UInt8 4
  deriving DecidableEq

structure Ipv6Addr where
  octets : Vector UInt8 16
  deriving DecidableEq

def Ipv4Addr.new (a b c d : UInt8) : Ipv4Addr :=
  ⟨#v[a, b, c, d]⟩

/-- An address from its eight segments. -/
def Ipv6Addr.new (a b c d e f g h : UInt16) : Ipv6Addr :=
  ⟨#v[(a >>> 8).toUInt8, a.toUInt8, (b >>> 8).toUInt8, b.toUInt8, (c >>> 8).toUInt8, c.toUInt8,
    (d >>> 8).toUInt8, d.toUInt8, (e >>> 8).toUInt8, e.toUInt8, (f >>> 8).toUInt8, f.toUInt8,
    (g >>> 8).toUInt8, g.toUInt8, (h >>> 8).toUInt8, h.toUInt8]⟩

inductive IpAddr where
  | v4 (addr : Ipv4Addr)
  | v6 (addr : Ipv6Addr)
  deriving DecidableEq

/-- The bits of an octet, most significant first. -/
def octetBits (octet : UInt8) : List Bool :=
  List.ofFn fun i : Fin 8 => octet.toBitVec.getMsbD i

/-- The bits of an address in network order. -/
def addrBits (octets : List UInt8) : List Bool :=
  octets.flatMap octetBits

@[simp]
theorem length_octetBits (octet : UInt8) : (octetBits octet).length = 8 := by
  simp [octetBits]

theorem addrBits_append (xs ys : List UInt8) : addrBits (xs ++ ys) = addrBits xs ++ addrBits ys :=
  List.flatMap_append

@[simp]
theorem length_addrBits (octets : List UInt8) : (addrBits octets).length = 8 * octets.length := by
  induction octets with
  | nil => rfl
  | cons octet rest ih =>
      have split : addrBits (octet :: rest) = octetBits octet ++ addrBits rest := rfl
      rw [split, List.length_append, length_octetBits, ih, List.length_cons]
      omega

theorem octetBits_injective : Function.Injective octetBits := by
  intro a b same
  apply UInt8.eq_of_toBitVec_eq
  apply BitVec.eq_of_getMsbD_eq
  intro i hi
  exact congrFun (List.ofFn_injective same) ⟨i, hi⟩

theorem addrBits_injective : Function.Injective addrBits := by
  intro xs ys same
  induction xs generalizing ys with
  | nil =>
      have size := congrArg List.length same
      rw [length_addrBits, length_addrBits] at size
      exact (List.length_eq_zero_iff.mp (by simpa using size.symm)).symm
  | cons x xs ih =>
      cases ys with
      | nil =>
          have size := congrArg List.length same
          simp [length_addrBits] at size
      | cons y ys =>
          obtain ⟨head, tail⟩ := List.append_inj same (by simp)
          rw [octetBits_injective head, ih tail]

def Ipv4Addr.bits (addr : Ipv4Addr) : List Bool :=
  addrBits addr.octets.toList

def Ipv6Addr.bits (addr : Ipv6Addr) : List Bool :=
  addrBits addr.octets.toList

/-- An IPv4 address with a prefix length; host bits are kept. -/
structure Ipv4Net where
  addr : Ipv4Addr
  prefixLen : UInt8
  valid : prefixLen.toNat ≤ 32
  deriving DecidableEq

/-- An IPv6 address with a prefix length; host bits are kept. -/
structure Ipv6Net where
  addr : Ipv6Addr
  prefixLen : UInt8
  valid : prefixLen.toNat ≤ 128
  deriving DecidableEq

inductive IpNet where
  | v4 (net : Ipv4Net)
  | v6 (net : Ipv6Net)
  deriving DecidableEq

def Ipv4Net.new? (addr : Ipv4Addr) (prefixLen : UInt8) : Option Ipv4Net :=
  if h : prefixLen.toNat ≤ 32 then some ⟨addr, prefixLen, h⟩ else none

def Ipv6Net.new? (addr : Ipv6Addr) (prefixLen : UInt8) : Option Ipv6Net :=
  if h : prefixLen.toNat ≤ 128 then some ⟨addr, prefixLen, h⟩ else none

/-- A prefix of at most 32 bits, whatever is asked for. -/
def Ipv4Net.clamped (addr : Ipv4Addr) (prefixLen : ℕ) : Ipv4Net where
  addr := addr
  prefixLen := .ofNat (min prefixLen 32)
  valid := by
    rw [UInt8.toNat_ofNat']
    omega

def Ipv6Net.clamped (addr : Ipv6Addr) (prefixLen : ℕ) : Ipv6Net where
  addr := addr
  prefixLen := .ofNat (min prefixLen 128)
  valid := by
    rw [UInt8.toNat_ofNat']
    omega

/-- The network part of a prefix, as bits. -/
def Ipv4Net.network (net : Ipv4Net) : List Bool :=
  net.addr.bits.take net.prefixLen.toNat

def Ipv6Net.network (net : Ipv6Net) : List Bool :=
  net.addr.bits.take net.prefixLen.toNat

def Ipv4Net.Contains (net : Ipv4Net) (addr : Ipv4Addr) : Prop :=
  net.network <+: addr.bits

def Ipv6Net.Contains (net : Ipv6Net) (addr : Ipv6Addr) : Prop :=
  net.network <+: addr.bits

instance (net : Ipv4Net) (addr : Ipv4Addr) : Decidable (net.Contains addr) :=
  inferInstanceAs (Decidable (_ <+: _))

instance (net : Ipv6Net) (addr : Ipv6Addr) : Decidable (net.Contains addr) :=
  inferInstanceAs (Decidable (_ <+: _))

def IpNet.addr : IpNet → IpAddr
  | .v4 net => .v4 net.addr
  | .v6 net => .v6 net.addr

def IpNet.prefixLen : IpNet → UInt8
  | .v4 net => net.prefixLen
  | .v6 net => net.prefixLen

def IpNet.new? : IpAddr → UInt8 → Option IpNet
  | .v4 addr, prefixLen => (Ipv4Net.new? addr prefixLen).map .v4
  | .v6 addr, prefixLen => (Ipv6Net.new? addr prefixLen).map .v6

/-- The octets `::ffff:0:0/96` starts with. -/
def mappedOctets : Vector UInt8 12 :=
  #v[0, 0, 0, 0, 0, 0, 0, 0, 0, 0, 0xFF, 0xFF]

/-- `to_ipv4_mapped`: the embedded IPv4 address of `::ffff:a.b.c.d`. -/
def Ipv6Addr.toIpv4Mapped (addr : Ipv6Addr) : Option Ipv4Addr :=
  if addr.octets.toList.take 12 = mappedOctets.toList then
    some ⟨#v[addr.octets[12], addr.octets[13], addr.octets[14], addr.octets[15]]⟩
  else none

/-- An address as the maps store it. -/
structure CIpv6Addr where
  octets : Vector UInt8 16
  deriving DecidableEq

namespace CIpv6Addr

def unspecified : CIpv6Addr :=
  ⟨Vector.replicate 16 0⟩

/-- RFC 4291 section 2.5.5.2: IPv4 addresses are stored IPv4-mapped. -/
def ofIpAddr : IpAddr → CIpv6Addr
  | .v4 addr => ⟨mappedOctets ++ addr.octets⟩
  | .v6 addr => ⟨addr.octets⟩

def bits (addr : CIpv6Addr) : List Bool :=
  addrBits addr.octets.toList

@[simp]
theorem length_bits (addr : CIpv6Addr) : addr.bits.length = 128 := by
  simp [bits]

end CIpv6Addr

def IpAddr.ofCIpv6Addr (addr : CIpv6Addr) : IpAddr :=
  match Ipv6Addr.toIpv4Mapped ⟨addr.octets⟩ with
  | some mapped => .v4 mapped
  | none => .v6 ⟨addr.octets⟩

/-- A prefix as the maps store it. -/
structure CNlri where
  prefixLen : UInt32
  address : CIpv6Addr
  deriving DecidableEq

namespace CNlri

/-- IPv4 prefix lengths are shifted by the 96 bits of the mapping prefix. -/
def ofIpNet (net : IpNet) : CNlri where
  prefixLen :=
    match net.addr with
    | .v4 _ => net.prefixLen.toUInt32 + 96
    | .v6 _ => net.prefixLen.toUInt32
  address := CIpv6Addr.ofIpAddr net.addr

/-- The trie node a key addresses: its first `prefix_len` bits. -/
def node (nlri : CNlri) : List Bool :=
  nlri.address.bits.take nlri.prefixLen.toNat

end CNlri

def IpNet.tryFrom (nlri : CNlri) : Except String IpNet :=
  match Ipv6Addr.toIpv4Mapped ⟨nlri.address.octets⟩ with
  | some mapped =>
      if nlri.prefixLen < 96 ∨ nlri.prefixLen - 96 > 32 then
        .error s!"ipv4-mapped nlri has invalid prefix length {nlri.prefixLen}"
      else
        match IpNet.new? (.v4 mapped) (nlri.prefixLen - 96).toUInt8 with
        | some net => .ok net
        | none => .error "invalid IP prefix length"
  | none =>
      if nlri.prefixLen > 128 then
        .error s!"ipv6 nlri has invalid prefix length {nlri.prefixLen}"
      else
        match IpNet.new? (.v6 ⟨nlri.address.octets⟩) nlri.prefixLen.toUInt8 with
        | some net => .ok net
        | none => .error "invalid IP prefix length"

/-- What a socket's RTT callback reports to userspace. -/
structure CTcpRttEvent where
  matchedNlri : CNlri
  nexthop : CIpv6Addr
  tsNs : UInt64
  srttUs : UInt32
  rttMin : UInt32
  deriving DecidableEq

/-! ## The two families in one key space -/

/-- The 96 bits every IPv4-mapped address starts with. -/
def mappedPrefix : List Bool :=
  addrBits mappedOctets.toList

@[simp]
theorem length_mappedPrefix : mappedPrefix.length = 96 := by
  simp [mappedPrefix]

@[simp]
theorem Ipv4Addr.length_bits (addr : Ipv4Addr) : addr.bits.length = 32 := by
  simp [Ipv4Addr.bits]

@[simp]
theorem Ipv6Addr.length_bits (addr : Ipv6Addr) : addr.bits.length = 128 := by
  simp [Ipv6Addr.bits]

theorem bits_ofIpAddr_v4 (addr : Ipv4Addr) :
    (CIpv6Addr.ofIpAddr (.v4 addr)).bits = mappedPrefix ++ addr.bits := by
  have mapped : (CIpv6Addr.ofIpAddr (.v4 addr)).octets.toList =
      mappedOctets.toList ++ addr.octets.toList :=
    Vector.toList_append
  rw [CIpv6Addr.bits, mapped, addrBits_append]
  rfl

theorem bits_ofIpAddr_v6 (addr : Ipv6Addr) : (CIpv6Addr.ofIpAddr (.v6 addr)).bits = addr.bits := rfl

theorem node_v4 (net : Ipv4Net) : (CNlri.ofIpNet (.v4 net)).node = mappedPrefix ++ net.network := by
  have len : (CNlri.ofIpNet (.v4 net)).prefixLen.toNat = 96 + net.prefixLen.toNat := by
    have := net.valid
    simp only [CNlri.ofIpNet, IpNet.addr, IpNet.prefixLen, UInt32.toNat_add,
      UInt8.toNat_toUInt32, UInt32.reduceToNat]
    omega
  have address : (CNlri.ofIpNet (.v4 net)).address = CIpv6Addr.ofIpAddr (.v4 net.addr) := rfl
  rw [CNlri.node, len, address, bits_ofIpAddr_v4, Ipv4Net.network, ← length_mappedPrefix,
    List.take_length_add_append]

theorem node_v6 (net : Ipv6Net) : (CNlri.ofIpNet (.v6 net)).node = net.network := by
  simp [CNlri.node, CNlri.ofIpNet, IpNet.addr, IpNet.prefixLen, bits_ofIpAddr_v6, Ipv6Net.network]

/-- The bits in front tell the mapped addresses from the others. -/
theorem not_mappedPrefix {addr : Ipv6Addr} (native : addr.toIpv4Mapped = none) :
    ¬ mappedPrefix <+: addr.bits := by
  intro mapped
  have front : addrBits (addr.octets.toList.take 12) = mappedPrefix := by
    have split : addr.bits = addrBits (addr.octets.toList.take 12) ++
        addrBits (addr.octets.toList.drop 12) := by
      rw [← addrBits_append, List.take_append_drop]
      rfl
    have take := List.prefix_iff_eq_take.mp mapped
    rw [split, length_mappedPrefix] at take
    rw [take, List.take_append_of_le_length (by simp)]
    exact (List.take_of_length_le (by simp)).symm
  have octets : addr.octets.toList.take 12 = mappedOctets.toList := addrBits_injective front
  simp [Ipv6Addr.toIpv4Mapped, octets] at native

theorem Ipv4Net.length_network (net : Ipv4Net) : net.network.length = net.prefixLen.toNat := by
  simp [Ipv4Net.network, net.valid]

theorem Ipv6Net.length_network (net : Ipv6Net) : net.network.length = net.prefixLen.toNat := by
  simp [Ipv6Net.network, net.valid]

/-! ## Back from the maps -/

/-- An address outside the IPv4-mapped range of IPv6. -/
def IpAddr.Native : IpAddr → Prop
  | .v4 _ => True
  | .v6 addr => addr.toIpv4Mapped = none

instance (addr : IpAddr) : Decidable addr.Native :=
  match addr with
  | .v4 _ => .isTrue trivial
  | .v6 addr => inferInstanceAs (Decidable (addr.toIpv4Mapped = none))

theorem toIpv4Mapped_ofIpAddr_v4 (addr : Ipv4Addr) :
    Ipv6Addr.toIpv4Mapped ⟨(CIpv6Addr.ofIpAddr (.v4 addr)).octets⟩ = some addr := by
  obtain ⟨octets⟩ := addr
  have mapped : ((mappedOctets ++ octets).toList).take 12 = mappedOctets.toList := by
    rw [Vector.toList_append]
    exact List.take_left' (by simp)
  have octet : ∀ i (hi : i < 4), (mappedOctets ++ octets)[12 + i] = octets[i] := by
    intro i hi
    rw [Vector.getElem_append_right (by omega) (by omega)]
    simp
  have front : #v[(mappedOctets ++ octets)[12], (mappedOctets ++ octets)[13],
      (mappedOctets ++ octets)[14], (mappedOctets ++ octets)[15]] = octets := by
    rw [octet 0 (by decide), octet 1 (by decide), octet 2 (by decide), octet 3 (by decide)]
    ext i hi
    interval_cases i <;> rfl
  simp only [Ipv6Addr.toIpv4Mapped, CIpv6Addr.ofIpAddr, mapped, if_true]
  rw [front]

/-- Only native addresses come back as they were; the others turn into IPv4. -/
theorem ofCIpv6Addr_ofIpAddr {addr : IpAddr} :
    IpAddr.ofCIpv6Addr (.ofIpAddr addr) = addr ↔ addr.Native := by
  cases addr with
  | v4 addr => simp [IpAddr.ofCIpv6Addr, toIpv4Mapped_ofIpAddr_v4, IpAddr.Native]
  | v6 addr =>
      simp only [IpAddr.ofCIpv6Addr, CIpv6Addr.ofIpAddr, IpAddr.Native]
      cases addr.toIpv4Mapped with
      | none => simp
      | some mapped => simp

private theorem tryFrom_ofIpNet_v4 (net : Ipv4Net) :
    IpNet.tryFrom (.ofIpNet (.v4 net)) = .ok (.v4 net) := by
  obtain ⟨addr, prefixLen, valid⟩ := net
  have len : prefixLen.toUInt32 + 96 - 96 = prefixLen.toUInt32 := UInt32.add_sub_cancel _ _
  have low : ¬ prefixLen.toUInt32 + 96 < 96 := by
    rw [UInt32.lt_iff_toNat_lt, UInt32.toNat_add, UInt8.toNat_toUInt32]
    simp only [UInt32.reduceToNat]
    omega
  have high : ¬ prefixLen.toUInt32 > 32 := by
    rw [gt_iff_lt, UInt32.lt_iff_toNat_lt, UInt8.toNat_toUInt32]
    simp only [UInt32.reduceToNat]
    omega
  simp [IpNet.tryFrom, CNlri.ofIpNet, IpNet.addr, IpNet.prefixLen, toIpv4Mapped_ofIpAddr_v4, len,
    low, high, IpNet.new?, Ipv4Net.new?, valid]

private theorem tryFrom_ofIpNet_v6 {net : Ipv6Net} (native : net.addr.toIpv4Mapped = none) :
    IpNet.tryFrom (.ofIpNet (.v6 net)) = .ok (.v6 net) := by
  obtain ⟨addr, prefixLen, valid⟩ := net
  have high : ¬ prefixLen.toUInt32 > 128 := by
    rw [gt_iff_lt, UInt32.lt_iff_toNat_lt, UInt8.toNat_toUInt32]
    simp only [UInt32.reduceToNat]
    omega
  simp only at native
  simp [IpNet.tryFrom, CNlri.ofIpNet, IpNet.addr, IpNet.prefixLen, CIpv6Addr.ofIpAddr, native, high,
    IpNet.new?, Ipv6Net.new?, valid]

/-- A mapped address is taken for IPv4, whatever its prefix length. -/
private theorem tryFrom_mapped {nlri : CNlri} {mapped : Ipv4Addr} {net : Ipv6Net}
    (embedded : Ipv6Addr.toIpv4Mapped ⟨nlri.address.octets⟩ = some mapped) :
    IpNet.tryFrom nlri ≠ .ok (.v6 net) := by
  simp only [IpNet.tryFrom, embedded]
  split
  · simp
  · cases built : Ipv4Net.new? mapped (nlri.prefixLen - 96).toUInt8 with
    | none => simp only [IpNet.new?, built, Option.map_none, ne_eq, reduceCtorEq, not_false_eq_true]
    | some net =>
        simp only [IpNet.new?, built, Option.map_some, ne_eq, Except.ok.injEq, reduceCtorEq,
          not_false_eq_true]

theorem tryFrom_ofIpNet {net : IpNet} :
    IpNet.tryFrom (.ofIpNet net) = .ok net ↔ net.addr.Native := by
  cases net with
  | v4 net => exact iff_of_true (tryFrom_ofIpNet_v4 net) trivial
  | v6 net =>
      constructor
      · intro back
        change net.addr.toIpv4Mapped = none
        cases embedded : net.addr.toIpv4Mapped with
        | none => rfl
        | some mapped => exact absurd back (tryFrom_mapped embedded)
      · exact tryFrom_ofIpNet_v6

end Erez.Daemon
