import Erez.Daemon.Abi
import Erez.Lib.LongestPrefix

/-! # Forwarding entries

`FibEntry` is what userspace may install: one to four nexthops whose non-zero
weights sum to the denominator. The fields carry these facts, so an entry that was
never validated cannot be written down. Packing one sorts the nexthops by their
stored address. `CFibEntry` is the raw map value, which the eBPF side must not trust.
-/

namespace Erez.Daemon

open Erez.Lib LongestPrefix

/-- Maximum number of nexthops in one FIB entry. -/
def maxNexthops : ℕ := 4

/-- The denominator for weights used to steer traffic. -/
def weightDenominator : UInt16 := 10000

structure WeightedNexthop where
  nexthop : IpAddr
  weight : UInt16
  deriving DecidableEq

/-- An array of `n` slots holding `xs` in front and `default` behind. -/
def packed {α : Type*} (n : ℕ) (xs : List α) (default : α) : Vector α n :=
  Vector.ofFn fun i => xs[i.val]?.getD default

theorem take_packed {α : Type*} {n : ℕ} {xs : List α} (fits : xs.length ≤ n) (default : α) :
    (packed n xs default).toList.take xs.length = xs := by
  apply List.ext_getElem
  · simp [fits]
  · intro i hi hi'
    simp [packed, hi']

/-- The sort key of a nexthop: its stored octets, compared lexicographically. -/
def WeightedNexthop.key (weighted : WeightedNexthop) : List ℕ :=
  (CIpv6Addr.ofIpAddr weighted.nexthop).octets.toList.map UInt8.toNat

def weightSum (nexthops : List WeightedNexthop) : UInt32 :=
  (nexthops.map fun weighted => weighted.weight.toUInt32).sum

/-- What userspace promises about an installed weight vector. -/
structure ValidWeights (weights : List UInt16) : Prop where
  total : (weights.map UInt16.toNat).sum = weightDenominator.toNat
  nonzero : ∀ weight ∈ weights, weight ≠ 0

structure FibEntry where
  nexthopCount : ℕ
  nexthops : Vector IpAddr maxNexthops
  weights : Vector UInt16 maxNexthops
  count_pos : 0 < nexthopCount
  count_le : nexthopCount ≤ maxNexthops
  valid : ValidWeights (weights.toList.take nexthopCount)
  deriving DecidableEq

private theorem toNat_sum (ws : List UInt16) (few : ws.length ≤ maxNexthops) :
    (ws.map UInt16.toUInt32).sum.toNat = (ws.map UInt16.toNat).sum ∧
      (ws.map UInt16.toNat).sum ≤ ws.length * 65535 := by
  induction ws with
  | nil => simp
  | cons w ws ih =>
      simp only [List.length_cons, maxNexthops] at few
      obtain ⟨same, bounded⟩ := ih (by simp only [maxNexthops]; omega)
      have hw : w.toNat < 65536 := w.toNat_lt
      simp only [List.map_cons, List.sum_cons, List.length_cons, UInt32.toNat_add, same,
        UInt16.toNat_toUInt32]
      omega

/-- Four 16-bit weights stay far below the wrap of a 32-bit sum. -/
theorem sum_toNat_lt {ws : List UInt16} (few : ws.length ≤ maxNexthops) :
    (ws.map UInt16.toNat).sum < 2 ^ 32 := by
  have bound := (toNat_sum ws few).2
  simp only [maxNexthops] at few
  omega

theorem toNat_weightSum {nexthops : List WeightedNexthop} (few : nexthops.length ≤ maxNexthops) :
    (weightSum nexthops).toNat = (nexthops.map fun weighted => weighted.weight.toNat).sum := by
  have sum := (toNat_sum (nexthops.map (·.weight)) (by simpa using few)).1
  simpa only [weightSum, List.map_map, Function.comp_def] using sum

namespace FibEntry

/-- Nexthops are sorted so that routing is predictable. -/
def sortNexthops (nexthops : List WeightedNexthop) : List WeightedNexthop :=
  nexthops.insertionSort fun a b => a.key ≤ b.key

theorem sortNexthops_perm (nexthops : List WeightedNexthop) :
    (sortNexthops nexthops).Perm nexthops :=
  List.perm_insertionSort _ nexthops

/-- Everything `new` checks. -/
structure Accepts (nexthops : List WeightedNexthop) : Prop where
  nonempty : nexthops ≠ []
  few : nexthops.length ≤ maxNexthops
  sum : weightSum nexthops = weightDenominator.toUInt32
  nonzero : ∀ weighted ∈ nexthops, weighted.weight ≠ 0

theorem Accepts.weights {nexthops : List WeightedNexthop} (h : Accepts nexthops) :
    ValidWeights (nexthops.map (·.weight)) where
  total := by
    have sum := congrArg UInt32.toNat h.sum
    rw [toNat_weightSum h.few, UInt16.toNat_toUInt32] at sum
    simpa only [List.map_map, Function.comp_def] using sum
  nonzero := by
    intro weight member
    obtain ⟨weighted, hw, rfl⟩ := List.mem_map.mp member
    exact h.nonzero weighted hw

theorem ValidWeights.perm {xs ys : List UInt16} (h : ValidWeights xs) (hp : xs.Perm ys) :
    ValidWeights ys where
  total := (hp.map _).sum_eq.symm.trans h.total
  nonzero := fun weight member => h.nonzero weight (hp.mem_iff.mpr member)

/-- Sort, then fill the fixed-size arrays front to back. -/
def pack (nexthops : List WeightedNexthop) (h : Accepts nexthops) : FibEntry where
  nexthopCount := (sortNexthops nexthops).length
  nexthops := packed maxNexthops ((sortNexthops nexthops).map (·.nexthop))
    (.v6 ⟨CIpv6Addr.unspecified.octets⟩)
  weights := packed maxNexthops ((sortNexthops nexthops).map (·.weight)) 0
  count_pos := by
    rw [(sortNexthops_perm nexthops).length_eq]
    exact List.length_pos_iff.mpr h.nonempty
  count_le := by
    rw [(sortNexthops_perm nexthops).length_eq]
    exact h.few
  valid := by
    have fits : ((sortNexthops nexthops).map (·.weight)).length ≤ maxNexthops := by
      rw [List.length_map, (sortNexthops_perm nexthops).length_eq]
      exact h.few
    have active := take_packed fits 0
    rw [List.length_map] at active
    rw [active]
    exact ValidWeights.perm h.weights ((sortNexthops_perm nexthops).map _).symm

/-- `FibEntry::new`, with the messages it fails with. -/
def new (nexthops : List WeightedNexthop) : Except String FibEntry :=
  if nonempty : nexthops = [] then
    .error "fib entry requires at least one nexthop"
  else if few : nexthops.length > maxNexthops then
    .error "fib entry has too many nexthops"
  else if sum : weightSum nexthops ≠ weightDenominator.toUInt32 then
    .error "fib entry weights must sum to 10000"
  else if nonzero : ∃ weighted ∈ nexthops, weighted.weight = 0 then
    .error "fib entry active nexthops must have non-zero weight"
  else
    .ok (pack nexthops ⟨nonempty, not_lt.mp few, not_not.mp sum,
      fun weighted member zero => nonzero ⟨weighted, member, zero⟩⟩)

theorem new_of_accepts {nexthops : List WeightedNexthop} (h : Accepts nexthops) :
    new nexthops = .ok (pack nexthops h) := by
  have nonzero : ¬ ∃ weighted ∈ nexthops, weighted.weight = 0 := by
    rintro ⟨weighted, member, zero⟩
    exact h.nonzero weighted member zero
  rw [new, dif_neg h.nonempty, dif_neg (not_lt.mpr h.few), dif_neg (not_not.mpr h.sum),
    dif_neg nonzero]

/-- `new` succeeds exactly on the lists it should, and then packs them. -/
theorem new_eq_ok_iff {nexthops : List WeightedNexthop} {entry : FibEntry} :
    new nexthops = .ok entry ↔ ∃ h : Accepts nexthops, pack nexthops h = entry := by
  constructor
  · intro built
    unfold new at built
    split_ifs at built with nonempty few sum nonzero
    exact ⟨_, Except.ok.inj built⟩
  · rintro ⟨h, rfl⟩
    exact new_of_accepts h

theorem isOk_new_iff {nexthops : List WeightedNexthop} :
    (∃ entry, new nexthops = .ok entry) ↔ Accepts nexthops := by
  constructor
  · rintro ⟨entry, built⟩
    exact (new_eq_ok_iff.mp built).1
  · intro h
    exact ⟨_, new_of_accepts h⟩

/-- The nexthops in use. -/
def active (entry : FibEntry) : List IpAddr :=
  entry.nexthops.toList.take entry.nexthopCount

theorem active_pack {nexthops : List WeightedNexthop} (h : Accepts nexthops) :
    (pack nexthops h).active = (sortNexthops nexthops).map (·.nexthop) := by
  have fits : ((sortNexthops nexthops).map (·.nexthop)).length ≤ maxNexthops := by
    rw [List.length_map, (sortNexthops_perm nexthops).length_eq]
    exact h.few
  simpa only [active, pack, List.length_map] using
    take_packed fits (.v6 ⟨CIpv6Addr.unspecified.octets⟩)

end FibEntry

/-- The value `e_fib` stores. -/
structure CFibEntry where
  matchedNlri : CNlri
  nexthopCount : UInt32
  nexthops : Vector CIpv6Addr maxNexthops
  weights : Vector UInt16 maxNexthops
  deriving DecidableEq

namespace CFibEntry

def new (matchedNlri : IpNet) (nexthopCount : ℕ) (nexthopAddrs : Vector IpAddr maxNexthops)
    (weights : Vector UInt16 maxNexthops) : CFibEntry where
  matchedNlri := CNlri.ofIpNet matchedNlri
  nexthopCount := nexthopCount.toUInt32
  nexthops := nexthopAddrs.map CIpv6Addr.ofIpAddr
  weights := weights

/-- The nexthops a raw entry declares to be in use. -/
def active (entry : CFibEntry) : List CIpv6Addr :=
  entry.nexthops.toList.take entry.nexthopCount.toNat

end CFibEntry

/-- The map value `Fib::insert` writes for an entry. -/
def FibEntry.toC (nlri : IpNet) (entry : FibEntry) : CFibEntry :=
  CFibEntry.new nlri entry.nexthopCount entry.nexthops entry.weights

theorem FibEntry.toNat_toC_count (nlri : IpNet) (entry : FibEntry) :
    (entry.toC nlri).nexthopCount.toNat = entry.nexthopCount := by
  have bound := entry.count_le
  simp only [maxNexthops] at bound
  simp only [toC, CFibEntry.new, Nat.toUInt32, UInt32.toNat_ofNat']
  omega

theorem FibEntry.active_toC (nlri : IpNet) (entry : FibEntry) :
    (entry.toC nlri).active = entry.active.map CIpv6Addr.ofIpAddr := by
  rw [CFibEntry.active, toNat_toC_count, active, List.map_take]
  simp [toC, CFibEntry.new, Vector.toList_map]

/-! ## The map -/

/-- Why a write to the FIB was given up. -/
inductive FibError where
  | invalidEntry (message : String)
  | deleteFailed (context : String)
  deriving DecidableEq

/-- `e_fib`, by the bits of the key that the kernel compares. -/
abbrev Fib := Trie Bool CFibEntry

/-- Where the FIB keeps the entry of an NLRI. -/
def IpNet.node (nlri : IpNet) : List Bool :=
  (CNlri.ofIpNet nlri).node

namespace Fib

def insert (fib : Fib) (nlri : IpNet) (entry : FibEntry) : Fib :=
  FiniteMap.insert fib nlri.node (entry.toC nlri)

def delete (fib : Fib) (nlri : IpNet) : Except FibError Fib :=
  if nlri.node ∈ fib then .ok (FiniteMap.erase fib nlri.node)
  else .error (.deleteFailed "failed to delete from e_fib")

/-- `bpf_map_lookup_elem` on the trie: the entry with the longest prefix of the key. -/
def lookup (fib : Fib) (nlri : CNlri) : Option CFibEntry :=
  Trie.longest fib nlri.node

end Fib

end Erez.Daemon
