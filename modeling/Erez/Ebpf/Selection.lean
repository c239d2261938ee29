import Erez.Daemon.FibEntry
import Erez.Ebpf.Metrics

/-! # Picking a nexthop from a raw FIB entry

`fib_entry_select_nexthop` validates and selects in the same unrolled scan: it
keeps summing after the ticket has been placed, because the sum is part of the
validation. The scan over the four slots is first reduced to a scan over the
active pairs; `pick` then says which pair a ticket falls on.
-/

namespace Erez.Ebpf

open Erez.Daemon

/-- The locals of the selection loop. -/
structure Scan where
  totalWeight : UInt32
  selected : Bool
  zeroWeight : Bool
  selectedNexthop : CIpv6Addr

def Scan.init : Scan := ⟨0, false, false, CIpv6Addr.unspecified⟩

/-- One iteration for a slot that is in use. -/
def Scan.visit (ticket : UInt32) (scan : Scan) (slot : CIpv6Addr × UInt16) : Scan :=
  let weight := slot.2.toUInt32
  if weight = 0 then { scan with zeroWeight := true }
  else
    let totalWeight := scan.totalWeight + weight
    if !scan.selected && ticket < totalWeight then
      { scan with totalWeight, selected := true, selectedNexthop := slot.1 }
    else { scan with totalWeight }

/-- The unrolled loop over all slots of the entry. -/
def Scan.run (entry : CFibEntry) (ticket : UInt32) : Scan :=
  (List.finRange maxNexthops).foldl
    (fun scan i =>
      if i.val < entry.nexthopCount.toNat then
        scan.visit ticket (entry.nexthops[i], entry.weights[i])
      else scan)
    Scan.init

/-- Returns the selected nexthop, or `none` where the C code returns `false`. -/
def fibEntrySelectNexthop (entry : CFibEntry) (random : UInt32) (metrics : Metrics) :
    Option CIpv6Addr × Metrics :=
  if entry.nexthopCount = 0 ∨ entry.nexthopCount > maxNexthops.toUInt32 then
    (none, metrics.bump .encapFibEntryValidationErrorsTotalInvalidNexthopCount)
  else
    let ticket := random % weightDenominator.toUInt32
    let scan := Scan.run entry ticket
    if scan.zeroWeight then
      (none, metrics.bump .encapFibEntryValidationErrorsTotalZeroWeight)
    else if scan.totalWeight ≠ weightDenominator.toUInt32 then
      (none, metrics.bump .encapFibEntryValidationErrorsTotalInvalidWeightSum)
    else (some scan.selectedNexthop, metrics)

/-- The counters `fib_entry_select_nexthop` may bump. -/
def validationCounters : List Counter :=
  [.encapFibEntryValidationErrorsTotalInvalidNexthopCount,
    .encapFibEntryValidationErrorsTotalZeroWeight,
    .encapFibEntryValidationErrorsTotalInvalidWeightSum]

/-- The pairs the entry declares to be in use. -/
def slots (entry : CFibEntry) : List (CIpv6Addr × UInt16) :=
  (entry.nexthops.toList.zip entry.weights.toList).take entry.nexthopCount.toNat

def slotSum (pairs : List (CIpv6Addr × UInt16)) : ℕ :=
  (pairs.map fun slot => slot.2.toNat).sum

/-- The pair whose interval of tickets contains `ticket`. -/
def pick : ℕ → List (CIpv6Addr × UInt16) → Option CIpv6Addr
  | _, [] => none
  | ticket, slot :: rest =>
      if ticket < slot.2.toNat then some slot.1 else pick (ticket - slot.2.toNat) rest

theorem pick_mem {ticket : ℕ} {pairs : List (CIpv6Addr × UInt16)} {nexthop : CIpv6Addr}
    (h : pick ticket pairs = some nexthop) : nexthop ∈ pairs.map (·.1) := by
  induction pairs generalizing ticket with
  | nil => simp [pick] at h
  | cons slot rest ih =>
      rw [pick] at h
      split at h
      · exact List.mem_cons.mpr (.inl (Option.some.inj h).symm)
      · exact List.mem_cons_of_mem _ (ih h)

theorem pick_of_lt {ticket : ℕ} {pairs : List (CIpv6Addr × UInt16)} (h : ticket < slotSum pairs) :
    ∃ nexthop, pick ticket pairs = some nexthop := by
  induction pairs generalizing ticket with
  | nil => simp [slotSum] at h
  | cons slot rest ih =>
      rw [pick]
      split
      · exact ⟨_, rfl⟩
      · refine ih ?_
        simp only [slotSum, List.map_cons, List.sum_cons] at h ⊢
        omega

/-- Weights that sum to the denominator leave no ticket without a nexthop. -/
theorem pick_ticket {pairs : List (CIpv6Addr × UInt16)}
    (total : slotSum pairs = weightDenominator.toNat) (random : UInt32) :
    ∃ nexthop, pick (random.toNat % weightDenominator.toNat) pairs = some nexthop := by
  apply pick_of_lt
  rw [total]
  exact Nat.mod_lt _ (by decide)

/-- Slots beyond the count are skipped, so the unrolled loop visits the pairs in use. -/
theorem Scan.run_eq {entry : CFibEntry} (bound : entry.nexthopCount.toNat ≤ maxNexthops)
    (ticket : UInt32) :
    Scan.run entry ticket = (slots entry).foldl (Scan.visit ticket) Scan.init := by
  have zipped : entry.nexthops.toList.zip entry.weights.toList =
      (List.finRange maxNexthops).map fun i => (entry.nexthops[i], entry.weights[i]) := by
    apply List.ext_getElem <;> simp
  have front : (List.finRange maxNexthops).take entry.nexthopCount.toNat =
      (List.finRange maxNexthops).filter fun i => i.val < entry.nexthopCount.toNat := by
    generalize entry.nexthopCount.toNat = count at bound
    simp only [maxNexthops] at bound ⊢
    interval_cases count <;> rfl
  rw [slots, zipped, ← List.map_take, front, List.foldl_map, List.foldl_filter]
  simp only [Scan.run, decide_eq_true_eq]

section Visit

theorem toUInt32_eq_zero {weight : UInt16} : weight.toUInt32 = 0 ↔ weight = 0 := by
  rw [← UInt32.toNat_inj, ← UInt16.toNat_inj]
  simp

theorem toNat_add_weight {total : UInt32} {weight : UInt16}
    (small : total.toNat + weight.toNat < 2 ^ 32) :
    (total + weight.toUInt32).toNat = total.toNat + weight.toNat := by
  rw [UInt32.toNat_add, UInt16.toNat_toUInt32, Nat.mod_eq_of_lt small]

variable (ticket : UInt32)

theorem foldl_visit_zeroWeight (pairs : List (CIpv6Addr × UInt16)) (scan : Scan) :
    (pairs.foldl (Scan.visit ticket) scan).zeroWeight = true ↔
      scan.zeroWeight = true ∨ ∃ slot ∈ pairs, slot.2 = 0 := by
  induction pairs generalizing scan with
  | nil => simp
  | cons slot rest ih =>
      rw [List.foldl_cons, ih, Scan.visit]
      by_cases h : slot.2 = 0
      · simp [h]
      · have hw : slot.2.toUInt32 ≠ 0 := fun e => h (toUInt32_eq_zero.mp e)
        simp only [hw, if_false]
        split <;> simp [h]

theorem toNat_visit_totalWeight (scan : Scan) (slot : CIpv6Addr × UInt16)
    (small : scan.totalWeight.toNat + slot.2.toNat < 2 ^ 32) :
    (scan.visit ticket slot).totalWeight.toNat = scan.totalWeight.toNat + slot.2.toNat := by
  have sum := toNat_add_weight small
  simp only [Scan.visit]
  split
  · rename_i zero
    simp [toUInt32_eq_zero.mp zero]
  · split <;> exact sum

theorem toNat_foldl_visit_totalWeight (pairs : List (CIpv6Addr × UInt16)) (scan : Scan)
    (small : scan.totalWeight.toNat + slotSum pairs < 2 ^ 32) :
    (pairs.foldl (Scan.visit ticket) scan).totalWeight.toNat =
      scan.totalWeight.toNat + slotSum pairs := by
  induction pairs generalizing scan with
  | nil => simp [slotSum]
  | cons slot rest ih =>
      simp only [slotSum, List.map_cons, List.sum_cons] at small ih ⊢
      have step := toNat_visit_totalWeight ticket scan slot (by omega)
      rw [List.foldl_cons, ih _ (by omega), step]
      omega

/-- Once a nexthop is selected, a later slot does not change it. -/
theorem Scan.visit_of_selected (scan : Scan) (slot : CIpv6Addr × UInt16)
    (done : scan.selected = true) :
    (scan.visit ticket slot).selected = true ∧
      (scan.visit ticket slot).selectedNexthop = scan.selectedNexthop := by
  rw [Scan.visit]
  split
  · exact ⟨done, rfl⟩
  · simp [done]

theorem foldl_visit_selected (pairs : List (CIpv6Addr × UInt16)) (scan : Scan)
    (done : scan.selected = true) :
    (pairs.foldl (Scan.visit ticket) scan).selectedNexthop = scan.selectedNexthop := by
  induction pairs generalizing scan with
  | nil => rfl
  | cons slot rest ih =>
      obtain ⟨still, same⟩ := Scan.visit_of_selected ticket scan slot done
      rw [List.foldl_cons, ih _ still, same]

/-- The loop selects the pair the ticket falls on. -/
theorem foldl_visit_pick (pairs : List (CIpv6Addr × UInt16)) (scan : Scan)
    (small : scan.totalWeight.toNat + slotSum pairs < 2 ^ 32) (open_ : scan.selected = false)
    (reached : scan.totalWeight.toNat ≤ ticket.toNat) :
    (pairs.foldl (Scan.visit ticket) scan).selectedNexthop =
      (pick (ticket.toNat - scan.totalWeight.toNat) pairs).getD scan.selectedNexthop := by
  induction pairs generalizing scan with
  | nil => rfl
  | cons slot rest ih =>
      simp only [slotSum, List.map_cons, List.sum_cons] at small
      have sum : (scan.totalWeight + slot.2.toUInt32).toNat =
          scan.totalWeight.toNat + slot.2.toNat := toNat_add_weight (by omega)
      have step := toNat_visit_totalWeight ticket scan slot (by omega)
      rw [List.foldl_cons, pick]
      by_cases here : ticket.toNat - scan.totalWeight.toNat < slot.2.toNat
      · have nonzero : slot.2.toUInt32 ≠ 0 := by
          intro zero
          rw [toUInt32_eq_zero.mp zero] at here
          exact Nat.not_lt_zero _ here
        have below : ticket < scan.totalWeight + slot.2.toUInt32 := by
          rw [UInt32.lt_iff_toNat_lt, sum]
          omega
        have visited : scan.visit ticket slot =
            { scan with
              totalWeight := scan.totalWeight + slot.2.toUInt32
              selected := true
              selectedNexthop := slot.1 } := by
          simp [Scan.visit, nonzero, open_, below]
        rw [visited, foldl_visit_selected _ _ _ rfl, if_pos here]
        rfl
      · have above : ¬ ticket < scan.totalWeight + slot.2.toUInt32 := by
          rw [UInt32.lt_iff_toNat_lt, sum]
          omega
        have still : (scan.visit ticket slot).selected = false ∧
            (scan.visit ticket slot).selectedNexthop = scan.selectedNexthop := by
          rw [Scan.visit]
          split
          · exact ⟨open_, rfl⟩
          · simp [open_, above]
        have rest_ : ticket.toNat - (scan.visit ticket slot).totalWeight.toNat =
            ticket.toNat - scan.totalWeight.toNat - slot.2.toNat := by omega
        rw [ih _ (by simp only [slotSum]; omega) still.1 (by omega), still.2, rest_, if_neg here]

end Visit

theorem length_slots {entry : CFibEntry} (bound : entry.nexthopCount.toNat ≤ maxNexthops) :
    (slots entry).length = entry.nexthopCount.toNat := by
  simp [slots, bound]

theorem slotSum_lt {entry : CFibEntry} (bound : entry.nexthopCount.toNat ≤ maxNexthops) :
    slotSum (slots entry) < 2 ^ 32 := by
  have few : ((slots entry).map (·.2)).length ≤ maxNexthops := by
    rw [List.length_map, length_slots bound]
    exact bound
  have total := sum_toNat_lt few
  rwa [List.map_map] at total

/-- The whole function: three validations in order, then the pick. -/
theorem fibEntrySelectNexthop_eq (entry : CFibEntry) (random : UInt32) (metrics : Metrics) :
    fibEntrySelectNexthop entry random metrics =
      if ¬ (0 < entry.nexthopCount.toNat ∧ entry.nexthopCount.toNat ≤ maxNexthops) then
        (none, metrics.bump .encapFibEntryValidationErrorsTotalInvalidNexthopCount)
      else if ∃ slot ∈ slots entry, slot.2 = 0 then
        (none, metrics.bump .encapFibEntryValidationErrorsTotalZeroWeight)
      else if slotSum (slots entry) ≠ weightDenominator.toNat then
        (none, metrics.bump .encapFibEntryValidationErrorsTotalInvalidWeightSum)
      else (pick (random.toNat % weightDenominator.toNat) (slots entry), metrics) := by
  have guard : (entry.nexthopCount = 0 ∨ entry.nexthopCount > maxNexthops.toUInt32) ↔
      ¬ (0 < entry.nexthopCount.toNat ∧ entry.nexthopCount.toNat ≤ maxNexthops) := by
    rw [← UInt32.toNat_inj, gt_iff_lt, UInt32.lt_iff_toNat_lt]
    simp only [maxNexthops, Nat.toUInt32, UInt32.reduceOfNat, UInt32.reduceToNat]
    omega
  rw [fibEntrySelectNexthop]
  by_cases valid : 0 < entry.nexthopCount.toNat ∧ entry.nexthopCount.toNat ≤ maxNexthops
  swap
  · rw [if_pos (guard.mpr valid), if_pos valid]
  rw [if_neg (fun h => guard.mp h valid), if_neg (not_not.mpr valid)]
  have bound := valid.2
  have small : Scan.init.totalWeight.toNat + slotSum (slots entry) < 2 ^ 32 := by
    have start : Scan.init.totalWeight.toNat = 0 := rfl
    have := slotSum_lt bound
    omega
  simp only [Scan.run_eq bound]
  set ticket := random % weightDenominator.toUInt32 with ticketIs
  have zero : ((slots entry).foldl (Scan.visit ticket) Scan.init).zeroWeight = true ↔
      ∃ slot ∈ slots entry, slot.2 = 0 := by
    rw [foldl_visit_zeroWeight]
    simp [Scan.init]
  have total : ((slots entry).foldl (Scan.visit ticket) Scan.init).totalWeight =
      weightDenominator.toUInt32 ↔ slotSum (slots entry) = weightDenominator.toNat := by
    rw [← UInt32.toNat_inj, toNat_foldl_visit_totalWeight ticket _ _ small, UInt16.toNat_toUInt32]
    simp [Scan.init]
  simp only [zero, ne_eq, total]
  split
  · rfl
  · split
    · rfl
    · rename_i whole
      obtain ⟨nexthop, picked⟩ := pick_ticket (not_not.mp whole) random
      have selected := foldl_visit_pick ticket (slots entry) Scan.init small rfl (Nat.zero_le _)
      have draw : ticket.toNat - Scan.init.totalWeight.toNat =
          random.toNat % weightDenominator.toNat := by
        simp [ticketIs, Scan.init, UInt32.toNat_mod]
      rw [selected, draw, picked]
      rfl

/-- The active pairs of a raw entry, as userspace would validate them. -/
def weightedSlots (entry : CFibEntry) : List WeightedNexthop :=
  (slots entry).map fun slot => ⟨IpAddr.ofCIpv6Addr slot.1, slot.2⟩

theorem addrs_slots (entry : CFibEntry) : (slots entry).map (·.1) = entry.active := by
  rw [slots, List.map_take, List.map_fst_zip (by simp), CFibEntry.active]

/-- An entry is refused with one validation counter, or what is selected is in use. -/
theorem select_cases (entry : CFibEntry) (random : UInt32) (metrics : Metrics) :
    (∃ counter ∈ validationCounters,
      fibEntrySelectNexthop entry random metrics = (none, metrics.bump counter)) ∨
    ∃ nexthop ∈ entry.active,
      fibEntrySelectNexthop entry random metrics = (some nexthop, metrics) := by
  rw [fibEntrySelectNexthop_eq]
  split
  · exact .inl ⟨_, by decide, rfl⟩
  · split
    · exact .inl ⟨_, by decide, rfl⟩
    · split
      · exact .inl ⟨_, by decide, rfl⟩
      · rename_i whole
        obtain ⟨nexthop, picked⟩ := pick_ticket (not_not.mp whole) random
        have inUse : nexthop ∈ entry.active := addrs_slots entry ▸ pick_mem picked
        exact .inr ⟨nexthop, inUse, by rw [picked]⟩

theorem accepts_weightedSlots_iff {entry : CFibEntry}
    (bound : entry.nexthopCount.toNat ≤ maxNexthops) :
    FibEntry.Accepts (weightedSlots entry) ↔
      0 < entry.nexthopCount.toNat ∧ (¬ ∃ slot ∈ slots entry, slot.2 = 0) ∧
        slotSum (slots entry) = weightDenominator.toNat := by
  have few : (weightedSlots entry).length ≤ maxNexthops := by
    rw [weightedSlots, List.length_map, length_slots bound]
    exact bound
  have sum : weightSum (weightedSlots entry) = weightDenominator.toUInt32 ↔
      slotSum (slots entry) = weightDenominator.toNat := by
    rw [← UInt32.toNat_inj, toNat_weightSum few, UInt16.toNat_toUInt32]
    simp [weightedSlots, slotSum, Function.comp_def]
  have nonempty : weightedSlots entry ≠ [] ↔ 0 < entry.nexthopCount.toNat := by
    rw [← List.length_pos_iff, weightedSlots, List.length_map, length_slots bound]
  have nonzero : (∀ weighted ∈ weightedSlots entry, weighted.weight ≠ 0) ↔
      ¬ ∃ slot ∈ slots entry, slot.2 = 0 := by
    simp only [weightedSlots, List.forall_mem_map, not_exists, not_and]
  constructor
  · intro h
    exact ⟨nonempty.mp h.nonempty, nonzero.mp h.nonzero, sum.mp h.sum⟩
  · rintro ⟨pos, noZero, total⟩
    exact ⟨nonempty.mpr pos, few, sum.mpr total, nonzero.mpr noZero⟩

theorem slots_toC (nlri : IpNet) {nexthops : List WeightedNexthop}
    (h : FibEntry.Accepts nexthops) :
    slots ((FibEntry.pack nexthops h).toC nlri) =
      (FibEntry.sortNexthops nexthops).map fun weighted =>
        (CIpv6Addr.ofIpAddr weighted.nexthop, weighted.weight) := by
  have fits : (FibEntry.sortNexthops nexthops).length ≤ maxNexthops := by
    rw [(FibEntry.sortNexthops_perm nexthops).length_eq]
    exact h.few
  have addrs := FibEntry.active_toC nlri (FibEntry.pack nexthops h)
  rw [FibEntry.active_pack, CFibEntry.active] at addrs
  have weights : ((FibEntry.pack nexthops h).toC nlri).weights.toList.take
      ((FibEntry.pack nexthops h).toC nlri).nexthopCount.toNat =
      (FibEntry.sortNexthops nexthops).map (·.weight) := by
    rw [FibEntry.toNat_toC_count]
    have room : ((FibEntry.sortNexthops nexthops).map (·.weight)).length ≤ maxNexthops := by
      rw [List.length_map]
      exact fits
    have active := take_packed room 0
    rw [List.length_map] at active
    exact active
  rw [slots, List.zip, List.take_zipWith, addrs, weights, List.map_map, ← List.zip,
    List.zip_map']
  rfl

/-- An accepted list is selected from without a complaint. -/
theorem select_toC (nlri : IpNet) {nexthops : List WeightedNexthop}
    (h : FibEntry.Accepts nexthops) (random : UInt32) (metrics : Metrics) :
    ∃ weighted ∈ nexthops,
      fibEntrySelectNexthop ((FibEntry.pack nexthops h).toC nlri) random metrics =
        (some (CIpv6Addr.ofIpAddr weighted.nexthop), metrics) := by
  have sorted := FibEntry.sortNexthops_perm nexthops
  have count := FibEntry.toNat_toC_count nlri (FibEntry.pack nexthops h)
  have pairs := slots_toC nlri h
  have valid : 0 < ((FibEntry.pack nexthops h).toC nlri).nexthopCount.toNat ∧
      ((FibEntry.pack nexthops h).toC nlri).nexthopCount.toNat ≤ maxNexthops := by
    rw [count]
    exact ⟨(FibEntry.pack nexthops h).count_pos, (FibEntry.pack nexthops h).count_le⟩
  have noZero : ¬ ∃ slot ∈ slots ((FibEntry.pack nexthops h).toC nlri), slot.2 = 0 := by
    rw [pairs]
    rintro ⟨slot, member, zero⟩
    obtain ⟨weighted, hw, rfl⟩ := List.mem_map.mp member
    exact h.nonzero weighted (sorted.mem_iff.mp hw) zero
  have total : slotSum (slots ((FibEntry.pack nexthops h).toC nlri)) = weightDenominator.toNat := by
    rw [pairs, slotSum, List.map_map, ← h.weights.total, List.map_map]
    exact (sorted.map _).sum_eq
  obtain ⟨nexthop, picked⟩ := pick_ticket total random
  have member := pick_mem picked
  rw [pairs, List.map_map] at member
  obtain ⟨weighted, hw, rfl⟩ := List.mem_map.mp member
  refine ⟨weighted, sorted.mem_iff.mp hw, ?_⟩
  rw [fibEntrySelectNexthop_eq, if_neg (not_not.mpr valid), if_neg noZero,
    if_neg (not_not.mpr total), picked]
  rfl

theorem validators_agree :
    (∀ (ws : List WeightedNexthop) (entry : FibEntry), FibEntry.new ws = .ok entry →
      ∀ (nlri : IpNet) (random : UInt32) (metrics : Metrics), ∃ weighted ∈ ws,
        fibEntrySelectNexthop (entry.toC nlri) random metrics =
          (some (CIpv6Addr.ofIpAddr weighted.nexthop), metrics)) ∧
    ∀ (entry : CFibEntry) (random : UInt32) (metrics : Metrics),
      ((fibEntrySelectNexthop entry random metrics).1.isSome = true ↔
        1 ≤ entry.nexthopCount.toNat ∧ entry.nexthopCount.toNat ≤ 4 ∧
          ∃ accepted, FibEntry.new (weightedSlots entry) = .ok accepted) ∧
      ((fibEntrySelectNexthop entry random metrics).1 = none →
        ∃ counter ∈ validationCounters,
          (fibEntrySelectNexthop entry random metrics).2 = metrics.bump counter) := by
  refine ⟨?_, fun entry random metrics => ?_⟩
  · intro ws entry built nlri random metrics
    obtain ⟨h, rfl⟩ := FibEntry.new_eq_ok_iff.mp built
    exact select_toC nlri h random metrics
  · rw [FibEntry.isOk_new_iff, fibEntrySelectNexthop_eq]
    by_cases valid : 0 < entry.nexthopCount.toNat ∧ entry.nexthopCount.toNat ≤ maxNexthops
    · rw [if_neg (not_not.mpr valid), accepts_weightedSlots_iff valid.2]
      by_cases zero : ∃ slot ∈ slots entry, slot.2 = 0
      · rw [if_pos zero]
        exact ⟨by simp [zero], fun _ => ⟨_, by simp [validationCounters], rfl⟩⟩
      · rw [if_neg zero]
        by_cases total : slotSum (slots entry) = weightDenominator.toNat
        · obtain ⟨nexthop, picked⟩ := pick_ticket total random
          rw [if_neg (not_not.mpr total), picked]
          exact ⟨⟨fun _ => ⟨valid.1, valid.2, valid.1, zero, total⟩, fun _ => rfl⟩,
            fun absent => absurd absent (by simp)⟩
        · rw [if_pos total]
          exact ⟨by simp [total], fun _ => ⟨_, by simp [validationCounters], rfl⟩⟩
    · rw [if_pos valid]
      refine ⟨?_, fun _ => ⟨_, by simp [validationCounters], rfl⟩⟩
      constructor
      · simp
      · rintro ⟨pos, few, -⟩
        exact absurd ⟨pos, few⟩ valid

end Erez.Ebpf
