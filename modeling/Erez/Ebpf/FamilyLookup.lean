import Erez.Daemon.FibEntry
import Erez.Ebpf.RoundTrip

/-! # One trie for two families

IPv4 prefixes live below `::ffff:0:0/96` in the 128-bit trie, and IPv4 packets are
looked up there. IPv6 prefixes that reach into that range compete with them: the
lookup is a per-family longest-prefix match exactly where an IPv4 prefix beats
every IPv6 prefix that covers the mapped destination.
-/

namespace Erez.Ebpf

open Erez.Daemon Erez.Lib ByteBuffer LongestPrefix

/-- The destination of a packet, as its own family writes it. -/
def destOf (data : Frame) (l3Proto : UInt16) : Option IpAddr :=
  if l3Proto = ethP_IP then (load data (ethHdrLen + 16) 4).map fun addr => .v4 ⟨addr⟩
  else if l3Proto = ethP_IPV6 then (load data (ethHdrLen + 24) 16).map fun addr => .v6 ⟨addr⟩
  else none

private theorem skbLoadBytes_ok {works : Bool} {data : Frame} {offset len : ℕ}
    {bytes : Vector UInt8 len} (h : skbLoadBytes works data offset len = some bytes) :
    load data offset len = some bytes := by
  unfold skbLoadBytes at h
  split at h
  · exact h
  · cases h

/-- The address that a packet has at an offset, which depends on its family. -/
def addrAt (data : Frame) (l3Proto : UInt16) (offset4 offset6 : ℕ) : Option IpAddr :=
  if l3Proto = ethP_IP then (load data (ethHdrLen + offset4) 4).map fun addr => .v4 ⟨addr⟩
  else if l3Proto = ethP_IPV6 then
    (load data (ethHdrLen + offset6) 16).map fun addr => .v6 ⟨addr⟩
  else none

/-- A loaded address is the packet's, as the maps store it. -/
theorem loadAddr_eq {works : Bool} {data : Frame} {l3Proto : UInt16} {offset4 offset6 : ℕ}
    {stored : CIpv6Addr} (loaded : loadAddr works data l3Proto offset4 offset6 = some stored) :
    ∃ addr, addrAt data l3Proto offset4 offset6 = some addr ∧ stored = .ofIpAddr addr := by
  unfold loadAddr at loaded
  split at loaded
  · rename_i ip
    obtain ⟨octets, present, rfl⟩ := Option.map_eq_some_iff.mp loaded
    refine ⟨.v4 ⟨octets⟩, ?_, rfl⟩
    rw [addrAt, if_pos ip, skbLoadBytes_ok present]
    rfl
  · rename_i notIp
    split at loaded
    · rename_i ip6
      obtain ⟨octets, present, rfl⟩ := Option.map_eq_some_iff.mp loaded
      refine ⟨.v6 ⟨octets⟩, ?_, rfl⟩
      rw [addrAt, if_neg notIp, if_pos ip6, skbLoadBytes_ok present]
      rfl
    · cases loaded

/-- The C encoder of the lookup key agrees with the Rust encoder of addresses. -/
theorem loadDestNlri_eq {env : EncapEnv} {data : Frame} {l3Proto : UInt16} {nlri : CNlri}
    (h : encapPktLoadDestNlri env data l3Proto = some nlri) :
    ∃ addr, destOf data l3Proto = some addr ∧ nlri = ⟨128, .ofIpAddr addr⟩ := by
  obtain ⟨key, loaded, rfl⟩ := Option.map_eq_some_iff.mp h
  obtain ⟨addr, dest, rfl⟩ := loadAddr_eq loaded
  exact ⟨addr, dest, rfl⟩

/-- `IpNet::contains`: families do not mix. -/
def Covers : IpNet → IpAddr → Prop
  | .v4 net, .v4 addr => net.Contains addr
  | .v6 net, .v6 addr => net.Contains addr
  | _, _ => False

/-- The IPv4-mapped form of an address. -/
def mapped (addr : Ipv4Addr) : Ipv6Addr :=
  ⟨(CIpv6Addr.ofIpAddr (.v4 addr)).octets⟩

/-- The FIB after installing the prefixes one after the other. -/
def fibOf (nets : List IpNet) (entry : IpNet → FibEntry) : Fib :=
  nets.foldl (fun fib net => fib.insert net (entry net)) ∅

theorem fibOf_eq (nets : List IpNet) (entry : IpNet → FibEntry) :
    fibOf nets entry = Trie.install IpNet.node (fun net => (entry net).toC net) nets := rfl

/-- What a longest-prefix match within the family of the destination answers. -/
structure FamilyMatch (installed : Finset IpNet) (entry : IpNet → FibEntry) (addr : IpAddr)
    (answer : Option CFibEntry) : Prop where
  miss : answer = none ↔ ∀ net ∈ installed, ¬ Covers net addr
  hit : ∀ found, answer = some found → ∃ net ∈ installed, Covers net addr ∧
    (∀ other ∈ installed, Covers other addr → other.prefixLen ≤ net.prefixLen) ∧
    found = (entry net).toC net

/-- The lookup is right for a destination, however the prefixes were installed and
    whatever entries they have. -/
def LookupCorrect (installed : Finset IpNet) (key : CNlri) (addr : IpAddr) : Prop :=
  ∀ (nets : List IpNet) (entry : IpNet → FibEntry), nets.toFinset = installed →
    FamilyMatch installed entry addr ((fibOf nets entry).lookup key)

/-- No IPv6 prefix that covers the mapped form of an IPv4 destination is as long as
    all IPv4 prefixes that cover the destination. -/
def Separated (installed : Finset IpNet) : IpAddr → Prop
  | .v4 addr => ∀ net, .v6 net ∈ installed → net.Contains (mapped addr) →
      ∃ own, .v4 own ∈ installed ∧ own.Contains addr ∧
        net.prefixLen.toNat < 96 + own.prefixLen.toNat
  | .v6 _ => True

theorem node_length_v4 (net : Ipv4Net) :
    (IpNet.node (.v4 net)).length = 96 + net.prefixLen.toNat := by
  rw [IpNet.node, node_v4, List.length_append, length_mappedPrefix, net.length_network]

theorem node_length_v6 (net : Ipv6Net) : (IpNet.node (.v6 net)).length = net.prefixLen.toNat := by
  rw [IpNet.node, node_v6, net.length_network]

theorem key_node (addr : IpAddr) :
    CNlri.node ⟨128, .ofIpAddr addr⟩ = (CIpv6Addr.ofIpAddr addr).bits := by
  rw [CNlri.node]
  exact List.take_of_length_le (CIpv6Addr.length_bits _).le

theorem node_v4_covers {net : Ipv4Net} {addr : Ipv4Addr} :
    IpNet.node (.v4 net) <+: (CIpv6Addr.ofIpAddr (.v4 addr)).bits ↔ net.Contains addr := by
  rw [IpNet.node, node_v4, bits_ofIpAddr_v4, List.prefix_append_right_inj]
  rfl

theorem node_v6_covers {net : Ipv6Net} {addr : Ipv4Addr} :
    IpNet.node (.v6 net) <+: (CIpv6Addr.ofIpAddr (.v4 addr)).bits ↔ net.Contains (mapped addr) := by
  rw [IpNet.node, node_v6]
  rfl

/-- Among IPv6 destinations outside the mapped range the trie is the family's own. -/
theorem node_covers_native {net : IpNet} {addr : Ipv6Addr} (native : addr.toIpv4Mapped = none) :
    net.node <+: (CIpv6Addr.ofIpAddr (.v6 addr)).bits ↔ Covers net (.v6 addr) := by
  cases net with
  | v4 net =>
      rw [IpNet.node, node_v4, bits_ofIpAddr_v6]
      refine iff_of_false (fun inside => ?_) id
      exact not_mappedPrefix native ((List.prefix_append _ _).trans inside)
  | v6 net =>
      rw [IpNet.node, node_v6]
      rfl

section Lookup

variable {installed : Finset IpNet} {nets : List IpNet} {entry : IpNet → FibEntry}

theorem lookup_miss (addr : IpAddr) :
    (fibOf nets entry).lookup ⟨128, .ofIpAddr addr⟩ = none ↔
      ∀ net ∈ nets, ¬ net.node <+: (CIpv6Addr.ofIpAddr addr).bits := by
  rw [Fib.lookup, fibOf_eq, key_node]
  exact Trie.longest_install_none _ _

theorem lookup_hit {addr : IpAddr} {found : CFibEntry}
    (h : (fibOf nets entry).lookup ⟨128, .ofIpAddr addr⟩ = some found) :
    ∃ net ∈ nets, net.node <+: (CIpv6Addr.ofIpAddr addr).bits ∧ (entry net).toC net = found ∧
      ∀ other ∈ nets, other.node <+: (CIpv6Addr.ofIpAddr addr).bits →
        other.node.length ≤ net.node.length := by
  rw [Fib.lookup, fibOf_eq, key_node] at h
  exact Trie.longest_install_some _ _ h

theorem lookupCorrect_native {addr : Ipv6Addr} (native : addr.toIpv4Mapped = none) :
    LookupCorrect installed ⟨128, .ofIpAddr (.v6 addr)⟩ (.v6 addr) := by
  rintro nets entry rfl
  constructor
  case miss =>
    rw [lookup_miss]
    simp only [node_covers_native native, List.mem_toFinset]
  case hit =>
    intro found answer
    obtain ⟨net, member, covers, rfl, maximal⟩ := lookup_hit answer
    refine ⟨net, List.mem_toFinset.mpr member, (node_covers_native native).mp covers, ?_, rfl⟩
    intro other otherMember otherCovers
    have longer := maximal other (List.mem_toFinset.mp otherMember)
      ((node_covers_native native).mpr otherCovers)
    rw [node_covers_native native] at covers
    -- Both are IPv6 prefixes, so their nodes are as long as they are.
    match net, other, covers, otherCovers with
    | .v6 net, .v6 other, _, _ =>
        rw [node_length_v6, node_length_v6] at longer
        exact UInt8.le_iff_toNat_le.mpr longer

theorem lookupCorrect_of_separated {addr : Ipv4Addr} (separated : Separated installed (.v4 addr)) :
    LookupCorrect installed ⟨128, .ofIpAddr (.v4 addr)⟩ (.v4 addr) := by
  rintro nets entry rfl
  simp only [Separated, List.mem_toFinset] at separated
  constructor
  case miss =>
    rw [lookup_miss]
    constructor
    · intro none net member covers
      match net, covers with
      | .v4 net, covers =>
          exact none _ (List.mem_toFinset.mp member) (node_v4_covers.mpr covers)
    · intro none net member covers
      cases net with
      | v4 net => exact none _ (List.mem_toFinset.mpr member) (node_v4_covers.mp covers)
      | v6 net =>
          obtain ⟨own, ownMember, ownCovers, -⟩ := separated net member (node_v6_covers.mp covers)
          exact none _ (List.mem_toFinset.mpr ownMember) ownCovers
  case hit =>
    intro found answer
    obtain ⟨net, member, covers, rfl, maximal⟩ := lookup_hit answer
    cases net with
    | v4 net =>
        refine ⟨.v4 net, List.mem_toFinset.mpr member, node_v4_covers.mp covers, ?_, rfl⟩
        intro other otherMember otherCovers
        match other, otherCovers with
        | .v4 other, otherCovers =>
            have longer := maximal _ (List.mem_toFinset.mp otherMember)
              (node_v4_covers.mpr otherCovers)
            rw [node_length_v4, node_length_v4] at longer
            exact UInt8.le_iff_toNat_le.mpr (Nat.le_of_add_le_add_left longer)
    | v6 net =>
        obtain ⟨own, ownMember, ownCovers, shorter⟩ :=
          separated net member (node_v6_covers.mp covers)
        have longer := maximal _ ownMember (node_v4_covers.mpr ownCovers)
        rw [node_length_v4, node_length_v6] at longer
        omega

/-! ## Where the families collide -/

/-- Some IPv6 prefix covers the mapped destination at least as closely as everything else. -/
theorem exists_captor {addr : Ipv4Addr} (collides : ¬ Separated installed (.v4 addr)) :
    ∃ net, .v6 net ∈ installed ∧ net.Contains (mapped addr) ∧
      ∀ other ∈ installed, other.node <+: (CIpv6Addr.ofIpAddr (.v4 addr)).bits →
        other.node.length ≤ (IpNet.node (.v6 net)).length := by
  simp only [Separated, not_forall, not_exists, not_and, not_lt] at collides
  obtain ⟨first, firstMember, firstContains, beaten⟩ := collides
  obtain ⟨captor, member, maximal⟩ := Finset.exists_max_image
    (installed.filter fun net => net.node <+: (CIpv6Addr.ofIpAddr (.v4 addr)).bits)
    (fun net => net.node.length) ⟨.v6 first, by simp [firstMember, node_v6_covers, firstContains]⟩
  simp only [Finset.mem_filter] at member maximal
  obtain ⟨inside, covers⟩ := member
  have atLeast := maximal (.v6 first) ⟨firstMember, node_v6_covers.mpr firstContains⟩
  cases captor with
  | v6 net =>
      exact ⟨net, inside, node_v6_covers.mp covers, fun other otherMember otherCovers =>
        maximal other ⟨otherMember, otherCovers⟩⟩
  | v4 net =>
      -- An IPv4 prefix as long as the IPv6 one leaves that one maximal too.
      have short := beaten net inside (node_v4_covers.mp covers)
      refine ⟨first, firstMember, firstContains, fun other otherMember otherCovers => ?_⟩
      have bound := maximal other ⟨otherMember, otherCovers⟩
      rw [node_length_v4] at bound
      rw [node_length_v6]
      omega

/-- Entries that can be told apart by how many nexthops they have. -/
private def oneHop : FibEntry where
  nexthopCount := 1
  nexthops := Vector.replicate maxNexthops (.v6 ⟨CIpv6Addr.unspecified.octets⟩)
  weights := packed maxNexthops [10000] 0
  count_pos := Nat.one_pos
  count_le := by decide
  valid := ⟨by decide, (by simp : ∀ weight ∈ [(10000 : UInt16)], weight ≠ 0)⟩

private def twoHops : FibEntry where
  nexthopCount := 2
  nexthops := Vector.replicate maxNexthops (.v6 ⟨CIpv6Addr.unspecified.octets⟩)
  weights := packed maxNexthops [5000, 5000] 0
  count_pos := Nat.two_pos
  count_le := by decide
  valid := ⟨by decide, (by simp : ∀ weight ∈ [(5000 : UInt16), 5000], weight ≠ 0)⟩

theorem separated_of_lookupCorrect {addr : Ipv4Addr}
    (correct : LookupCorrect installed ⟨128, .ofIpAddr (.v4 addr)⟩ (.v4 addr)) :
    Separated installed (.v4 addr) := by
  by_contra collides
  obtain ⟨net, member, contains, maximal⟩ := exists_captor collides
  -- Install the captor last, with an entry nobody else has.
  let entry : IpNet → FibEntry := fun other => if other = .v6 net then twoHops else oneHop
  have same : ((installed.erase (.v6 net)).toList ++ [IpNet.v6 net]).toFinset = installed := by
    rw [List.toFinset_append, Finset.toList_toFinset, List.toFinset_cons, List.toFinset_nil,
      insert_empty_eq, Finset.union_singleton, Finset.insert_erase member]
  have captured : (fibOf ((installed.erase (.v6 net)).toList ++ [IpNet.v6 net]) entry).lookup
      ⟨128, .ofIpAddr (.v4 addr)⟩ = some ((entry (.v6 net)).toC (.v6 net)) := by
    rw [Fib.lookup, fibOf_eq, key_node]
    refine Trie.longest_install_last _ _ (node_v6_covers.mpr contains) fun other otherMember => ?_
    exact maximal other (Finset.mem_of_mem_erase (Finset.mem_toList.mp otherMember))
  obtain ⟨own, -, covers, -, answer⟩ := (correct _ entry same).hit _ captured
  have other : own ≠ .v6 net := by
    rintro rfl
    exact covers
  have counts := congrArg (fun e : CFibEntry => e.nexthopCount.toNat) answer
  simp only [FibEntry.toNat_toC_count, entry, if_neg other, if_true] at counts
  exact absurd counts (by decide)

end Lookup

/-- For every set of installed prefixes and every packet that reaches the lookup, an
    IPv6 destination outside the mapped range always gets its family's longest match;
    an IPv4 destination gets it exactly when no IPv6 prefix captures it. -/
theorem lookup_correct_iff_separated {Sock : Type*} (installed : Finset IpNet) (env : EncapEnv)
    (skb : Skb Sock) (metrics : Metrics) (pkt : EncapPacket)
    (parsed : (encapPktParse env skb metrics).1 = .ok pkt) :
    ∃ addr, destOf skb.data skb.protocol = some addr ∧
      ((∀ native, addr = .v6 native → native.toIpv4Mapped = none) →
        (LookupCorrect installed pkt.nlri addr ↔ Separated installed addr)) := by
  obtain ⟨-, -, loaded⟩ := encapPktParse_ok parsed
  obtain ⟨addr, dest, key⟩ := loadDestNlri_eq loaded
  refine ⟨addr, dest, fun outside => ?_⟩
  rw [key]
  cases addr with
  | v4 addr => exact ⟨separated_of_lookupCorrect, lookupCorrect_of_separated⟩
  | v6 addr => exact iff_of_true (lookupCorrect_native (outside addr rfl)) trivial

section Captured

private def defaultRoute6 : IpNet := .v6 (.clamped (.new 0 0 0 0 0 0 0 0) 0)

private def probeDest : Ipv4Addr := .new 203 0 113 9

private def probe : Skb ℕ := udpTo none probeDest

private def probePacket : EncapPacket := ⟨ethP_IP, 17, ⟨128, .ofIpAddr (.v4 probeDest)⟩⟩

/-- With only an IPv6 default route installed, an IPv4 packet finds an entry. -/
theorem ipv4_captured_by_default_route :
    (encapPktParse .smooth probe Metrics.zero).1 = .ok probePacket ∧
      destOf probe.data probe.protocol = some (.v4 probeDest) ∧
      ¬ LookupCorrect {defaultRoute6} probePacket.nlri (.v4 probeDest) := by
  refine ⟨by decide +kernel, by decide +kernel, fun correct => ?_⟩
  have missed := (correct [defaultRoute6] (fun _ => oneHop) rfl).miss.mpr (by
    intro net member covers
    rw [Finset.mem_singleton.mp member] at covers
    exact covers)
  revert missed
  decide +kernel

theorem lookup_correct_iff_separated_probe :
    ∃ addr, destOf probe.data probe.protocol = some addr ∧
      ((∀ native, addr = .v6 native → native.toIpv4Mapped = none) →
        (LookupCorrect {defaultRoute6} probePacket.nlri addr ↔
          Separated {defaultRoute6} addr)) :=
  lookup_correct_iff_separated {defaultRoute6} .smooth probe Metrics.zero probePacket
    (by decide +kernel)

end Captured

end Erez.Ebpf
