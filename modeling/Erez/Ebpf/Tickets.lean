import Erez.Ebpf.Selection

/-! # Which tickets fall on which position

The loop of `fib_entry_select_nexthop`, position by position. After the first `n`
positions the running total is the sum of their weights, and a nexthop has been
selected exactly when the ticket is below that total. So each position is picked by
the tickets between two such sums.
-/

namespace Erez.Ebpf

open Erez.Daemon

/-- The locals of the loop after the first `n` iterations. -/
def Scan.upTo (entry : CFibEntry) (ticket : UInt32) (n : ℕ) : Scan :=
  ((List.finRange maxNexthops).take n).foldl
    (fun scan i =>
      if i.val < entry.nexthopCount.toNat then
        scan.visit ticket (entry.nexthops.get i, entry.weights.get i)
      else scan)
    Scan.init

/-- The iteration of a position is the one that selects. -/
def Picks (entry : CFibEntry) (ticket : UInt32) (i : Fin maxNexthops) : Prop :=
  (Scan.upTo entry ticket i).selected = false ∧ (Scan.upTo entry ticket (i + 1)).selected = true

instance (entry : CFibEntry) (ticket : UInt32) (i : Fin maxNexthops) :
    Decidable (Picks entry ticket i) :=
  inferInstanceAs (Decidable (_ ∧ _))

/-- The weights of the positions before the `n`-th. -/
def earlier (entry : CFibEntry) (n : ℕ) : ℕ :=
  ((entry.weights.toList.take n).map UInt16.toNat).sum

theorem earlier_zero (entry : CFibEntry) : earlier entry 0 = 0 := rfl

theorem earlier_succ (entry : CFibEntry) (i : Fin maxNexthops) :
    earlier entry (i + 1) = earlier entry i + (entry.weights.get i).toNat := by
  have inside : i.val < entry.weights.toList.length := by simp
  rw [earlier, List.take_succ_eq_append_getElem inside, List.map_append, List.sum_append, earlier]
  simp [Vector.get_eq_getElem]

theorem earlier_mono (entry : CFibEntry) {m n : ℕ} (le : m ≤ n) : earlier entry m ≤ earlier entry n := by
  have split := List.take_append_drop m (entry.weights.toList.take n)
  rw [List.take_take, min_eq_left le] at split
  rw [earlier, earlier, ← split, List.map_append, List.sum_append]
  exact Nat.le_add_right _ _

theorem earlier_lt (entry : CFibEntry) (n : ℕ) : earlier entry n < 2 ^ 32 := by
  apply sum_toNat_lt
  rw [List.length_take, Vector.length_toList]
  exact min_le_right n maxNexthops

/-- Some position's interval contains any number below the running total. -/
theorem exists_interval {entry : CFibEntry} {number : ℕ} (n : ℕ) (few : n ≤ maxNexthops)
    (below : number < earlier entry n) :
    ∃ i : Fin maxNexthops, i.val < n ∧ earlier entry i ≤ number ∧ number < earlier entry (i + 1) := by
  induction n with
  | zero =>
      rw [earlier_zero] at below
      exact absurd below (Nat.not_lt_zero _)
  | succ n ih =>
      by_cases earlierOne : number < earlier entry n
      · obtain ⟨i, lt, inside⟩ := ih (by omega) earlierOne
        exact ⟨i, by omega, inside⟩
      · exact ⟨⟨n, few⟩, by simp, not_lt.mp earlierOne, below⟩

theorem interval_unique {entry : CFibEntry} {number : ℕ} {i j : Fin maxNexthops}
    (atI : earlier entry i ≤ number ∧ number < earlier entry (i + 1))
    (atJ : earlier entry j ≤ number ∧ number < earlier entry (j + 1)) : i = j := by
  have ordered {a b : Fin maxNexthops} (lt : a < b) : earlier entry (a + 1) ≤ earlier entry b :=
    earlier_mono entry lt
  cases lt_trichotomy i j with
  | inl lt =>
      have := ordered lt
      omega
  | inr rest =>
      cases rest with
      | inl same => exact same
      | inr gt =>
          have := ordered gt
          omega

section Loop

variable (entry : CFibEntry) (ticket : UInt32)

theorem Scan.upTo_succ (i : Fin maxNexthops) :
    Scan.upTo entry ticket (i + 1) =
      if i.val < entry.nexthopCount.toNat then
        (Scan.upTo entry ticket i).visit ticket (entry.nexthops.get i, entry.weights.get i)
      else Scan.upTo entry ticket i := by
  have inside : i.val < (List.finRange maxNexthops).length := by simp
  rw [Scan.upTo, List.take_succ_eq_append_getElem inside, List.foldl_append]
  simp [Scan.upTo]

theorem Scan.run_eq_upTo : Scan.run entry ticket = Scan.upTo entry ticket maxNexthops := by
  rw [Scan.upTo, List.take_of_length_le (by simp)]
  rfl

/-- One iteration selects, unless one before it did, when the ticket is below its total. -/
theorem Scan.visit_selected_iff (scan : Scan) (slot : CIpv6Addr × UInt16) (nonzero : slot.2 ≠ 0)
    (small : scan.totalWeight.toNat + slot.2.toNat < 2 ^ 32) :
    (scan.visit ticket slot).selected = true ↔
      scan.selected = true ∨ ticket.toNat < scan.totalWeight.toNat + slot.2.toNat := by
  have heavy : slot.2.toUInt32 ≠ 0 := mt toUInt32_eq_zero.mp nonzero
  simp only [Scan.visit, if_neg heavy, UInt32.lt_iff_toNat_lt, toNat_add_weight small]
  cases selected : scan.selected with
  | true => simp
  | false =>
      by_cases below : ticket.toNat < scan.totalWeight.toNat + slot.2.toNat
      · simp [below]
      · simp [below]

/-- What the loop relies on to place every ticket. -/
structure Whole (entry : CFibEntry) : Prop where
  few : entry.nexthopCount.toNat ≤ maxNexthops
  nonzero : ∀ i : Fin maxNexthops, i.val < entry.nexthopCount.toNat → entry.weights.get i ≠ 0
  total : earlier entry entry.nexthopCount.toNat = 10000

/-- The loop invariant. -/
theorem Scan.upTo_invariant (whole : Whole entry) (n : ℕ)
    (used : n ≤ entry.nexthopCount.toNat) (few : n ≤ maxNexthops) :
    (Scan.upTo entry ticket n).totalWeight.toNat = earlier entry n ∧
      ((Scan.upTo entry ticket n).selected = true ↔ ticket.toNat < earlier entry n) := by
  induction n with
  | zero => exact ⟨rfl, by simp [Scan.upTo, Scan.init, earlier_zero]⟩
  | succ n ih =>
      let i : Fin maxNexthops := ⟨n, few⟩
      obtain ⟨total, selected⟩ := ih (by omega) (by omega)
      have sum : earlier entry (n + 1) = earlier entry n + (entry.weights.get i).toNat := earlier_succ entry i
      have small := earlier_lt entry (n + 1)
      have step : Scan.upTo entry ticket (n + 1) =
          (Scan.upTo entry ticket n).visit ticket (entry.nexthops.get i, entry.weights.get i) :=
        (Scan.upTo_succ entry ticket i).trans (if_pos used)
      have fits : (Scan.upTo entry ticket n).totalWeight.toNat + (entry.weights.get i).toNat < 2 ^ 32 := by
        rw [total, ← sum]
        exact small
      constructor
      · rw [step, toNat_visit_totalWeight ticket _ _ fits, total, sum]
      · rw [step, Scan.visit_selected_iff ticket _ _ (whole.nonzero i used) fits, selected, total, sum]
        dsimp only
        omega

/-- What a position selected is still selected when the loop ends. -/
theorem Scan.run_of_picks {i : Fin maxNexthops} (used : i.val < entry.nexthopCount.toNat)
    (picked : Picks entry ticket i) :
    (Scan.run entry ticket).selectedNexthop = entry.nexthops.get i := by
  have chosen : (Scan.upTo entry ticket (i + 1)).selectedNexthop = entry.nexthops.get i := by
    obtain ⟨before, after⟩ := picked
    rw [Scan.upTo_succ, if_pos used] at after ⊢
    revert after
    simp only [Scan.visit]
    split
    · simp [before]
    · split <;> simp [before]
  have kept (n : ℕ) (le : i.val + 1 ≤ n) : n ≤ maxNexthops →
      (Scan.upTo entry ticket n).selected = true ∧
        (Scan.upTo entry ticket n).selectedNexthop = entry.nexthops.get i := by
    induction n, le using Nat.le_induction with
    | base => exact fun _ => ⟨picked.2, chosen⟩
    | succ n le ih =>
        intro few
        obtain ⟨selected, same⟩ := ih (by omega)
        have step := Scan.upTo_succ entry ticket ⟨n, few⟩
        simp only at step
        rw [step]
        split
        · rw [(Scan.visit_of_selected ticket _ _ selected).2]
          exact ⟨(Scan.visit_of_selected ticket _ _ selected).1, same⟩
        · exact ⟨selected, same⟩
  rw [Scan.run_eq_upTo]
  exact (kept maxNexthops i.isLt le_rfl).2

/-- A position that is not in use never selects. -/
theorem used_of_picks {i : Fin maxNexthops} (picked : Picks entry ticket i) :
    i.val < entry.nexthopCount.toNat := by
  obtain ⟨before, after⟩ := picked
  by_contra idle
  rw [Scan.upTo_succ, if_neg idle, before] at after
  cases after

end Loop

section Placed

variable {entry : CFibEntry}

theorem Whole.picks_iff (whole : Whole entry) (ticket : UInt32) {i : Fin maxNexthops}
    (used : i.val < entry.nexthopCount.toNat) :
    Picks entry ticket i ↔ earlier entry i ≤ ticket.toNat ∧ ticket.toNat < earlier entry (i + 1) := by
  have before := (Scan.upTo_invariant entry ticket whole i used.le i.isLt.le).2
  have after := (Scan.upTo_invariant entry ticket whole (i + 1) used i.isLt).2
  rw [Picks, after, ← Bool.not_eq_true, before, not_lt]

theorem toNat_ticket {t : ℕ} (lt : t < 10000) : t.toUInt32.toNat = t := by
  simp only [Nat.toUInt32, UInt32.toNat_ofNat']
  omega

theorem Whole.picks_ticket_iff (whole : Whole entry) {t : ℕ} (lt : t < 10000) {i : Fin maxNexthops}
    (used : i.val < entry.nexthopCount.toNat) :
    Picks entry t.toUInt32 i ↔
      earlier entry i ≤ t ∧ t < earlier entry i + (entry.weights.get i).toNat := by
  rw [whole.picks_iff _ used, toNat_ticket lt, earlier_succ]

theorem Whole.card_picks (whole : Whole entry) {i : Fin maxNexthops}
    (used : i.val < entry.nexthopCount.toNat) :
    ((Finset.range 10000).filter fun t => Picks entry t.toUInt32 i).card =
      (entry.weights.get i).toNat := by
  have room : earlier entry i + (entry.weights.get i).toNat ≤ 10000 := by
    rw [← earlier_succ, ← whole.total]
    exact earlier_mono entry used
  have interval : (Finset.range 10000).filter (fun t => Picks entry t.toUInt32 i) =
      Finset.Ico (earlier entry i) (earlier entry i + (entry.weights.get i).toNat) := by
    ext t
    rw [Finset.mem_filter, Finset.mem_range, Finset.mem_Ico]
    constructor
    · intro both
      exact (whole.picks_ticket_iff both.1 used).mp both.2
    · intro inside
      have lt : t < 10000 := by omega
      exact ⟨lt, (whole.picks_ticket_iff lt used).mpr inside⟩
  rw [interval, Nat.card_Ico, Nat.add_sub_cancel_left]

theorem Whole.existsUnique_picks (whole : Whole entry) {t : ℕ} (lt : t < 10000) :
    ∃! i : Fin maxNexthops, Picks entry t.toUInt32 i := by
  obtain ⟨i, used, inside⟩ := exists_interval _ whole.few (whole.total ▸ lt)
  refine ⟨i, (whole.picks_iff _ used).mpr (by rw [toNat_ticket lt]; exact inside), ?_⟩
  intro j picked
  have other := (whole.picks_iff _ (used_of_picks entry _ picked)).mp picked
  rw [toNat_ticket lt] at other
  exact interval_unique other inside

end Placed

section Accepted

variable {ws : List WeightedNexthop} (h : FibEntry.Accepts ws) (nlri : IpNet)

/-- Every position in use has a weight, and together they take up all tickets. -/
theorem whole_toC : Whole ((FibEntry.pack ws h).toC nlri) where
  few := by
    rw [FibEntry.toNat_toC_count]
    exact (FibEntry.pack ws h).count_le
  nonzero := by
    intro i used
    rw [FibEntry.toNat_toC_count] at used
    apply (FibEntry.pack ws h).valid.nonzero
    rw [List.mem_take_iff_getElem]
    exact ⟨i, by simpa using used, by simp [FibEntry.toC, CFibEntry.new, Vector.get_eq_getElem]⟩
  total := by
    rw [FibEntry.toNat_toC_count]
    exact (FibEntry.pack ws h).valid.total

/-- What a position in use stores is the sort key of the nexthop at that place. -/
theorem octets_toC {i : Fin maxNexthops} (inside : i.val < (FibEntry.sortNexthops ws).length) :
    (((FibEntry.pack ws h).toC nlri).nexthops.get i).octets.toList.map UInt8.toNat =
      (FibEntry.sortNexthops ws)[i.val].key := by
  have stored : (FibEntry.pack ws h).nexthops.get i = (FibEntry.sortNexthops ws)[i.val].nexthop := by
    simp [FibEntry.pack, packed, inside]
  have copied : ((FibEntry.pack ws h).toC nlri).nexthops.get i =
      CIpv6Addr.ofIpAddr ((FibEntry.pack ws h).nexthops.get i) := by
    simp [FibEntry.toC, CFibEntry.new]
  rw [copied, stored, WeightedNexthop.key]

/-- The stored addresses of the positions in use are in order. -/
theorem octets_toC_le {i j : Fin maxNexthops} (le : i ≤ j)
    (used : j.val < ((FibEntry.pack ws h).toC nlri).nexthopCount.toNat) :
    (((FibEntry.pack ws h).toC nlri).nexthops.get i).octets.toList.map UInt8.toNat ≤
      (((FibEntry.pack ws h).toC nlri).nexthops.get j).octets.toList.map UInt8.toNat := by
  rw [FibEntry.toNat_toC_count] at used
  have last : j.val < (FibEntry.sortNexthops ws).length := used
  have first : i.val < (FibEntry.sortNexthops ws).length := lt_of_le_of_lt le last
  have sorted : (FibEntry.sortNexthops ws).Pairwise fun a b => a.key ≤ b.key :=
    List.pairwise_insertionSort _ _
  rw [octets_toC h nlri first, octets_toC h nlri last]
  cases eq_or_lt_of_le le with
  | inl same => subst same; exact le_rfl
  | inr lt => exact List.pairwise_iff_getElem.mp sorted i j first last lt

/-- The function answers with the nexthop its loop selected. -/
theorem select_toC_eq_run (random : UInt32) (metrics : Metrics) :
    fibEntrySelectNexthop ((FibEntry.pack ws h).toC nlri) random metrics =
      (some (Scan.run ((FibEntry.pack ws h).toC nlri)
        (random % weightDenominator.toUInt32)).selectedNexthop, metrics) := by
  obtain ⟨weighted, -, answered⟩ := select_toC nlri h random metrics
  simp only [fibEntrySelectNexthop] at answered ⊢
  split_ifs at answered ⊢
  · simp at answered
  · simp at answered
  · simp at answered
  · rfl

end Accepted

/-- The tickets that pick a position: as many as its weight, from the sum of the weights
    before it on. -/
theorem tickets_honoured {ws : List WeightedNexthop} {accepted : FibEntry}
    (built : FibEntry.new ws = .ok accepted) (nlri : IpNet) :
    (∀ i : Fin maxNexthops, i.val < (accepted.toC nlri).nexthopCount.toNat →
      ((Finset.range 10000).filter fun t => Picks (accepted.toC nlri) t.toUInt32 i).card =
        ((accepted.toC nlri).weights.get i).toNat ∧
      ∀ t < 10000, Picks (accepted.toC nlri) t.toUInt32 i ↔
        earlier (accepted.toC nlri) i ≤ t ∧
          t < earlier (accepted.toC nlri) i + ((accepted.toC nlri).weights.get i).toNat) ∧
    (∀ t < 10000, ∃! i : Fin maxNexthops, Picks (accepted.toC nlri) t.toUInt32 i) ∧
    (∀ (random : UInt32) (metrics : Metrics) (i : Fin maxNexthops),
      Picks (accepted.toC nlri) (random % 10000) i →
        fibEntrySelectNexthop (accepted.toC nlri) random metrics =
          (some ((accepted.toC nlri).nexthops.get i), metrics)) ∧
    ∀ i j : Fin maxNexthops, i ≤ j → j.val < (accepted.toC nlri).nexthopCount.toNat →
      ((accepted.toC nlri).nexthops.get i).octets.toList.map UInt8.toNat ≤
        ((accepted.toC nlri).nexthops.get j).octets.toList.map UInt8.toNat := by
  obtain ⟨h, same⟩ := FibEntry.new_eq_ok_iff.mp built
  subst same
  have whole := whole_toC h nlri
  refine ⟨?_, fun t lt => whole.existsUnique_picks lt, ?_, ?_⟩
  · intro i used
    exact ⟨whole.card_picks used, fun t lt => whole.picks_ticket_iff lt used⟩
  · intro random metrics i picked
    have chosen := Scan.run_of_picks _ _ (used_of_picks _ _ picked) picked
    rw [select_toC_eq_run]
    exact congrArg (fun nexthop => (some nexthop, metrics)) chosen
  · intro i j le used
    exact octets_toC_le h nlri le used

/-- Listed in the order userspace received them, which is not the stored one. -/
private def quarterLast : List WeightedNexthop :=
  [⟨.v4 (.new 192 0 2 32), 7500⟩, ⟨.v4 (.new 192 0 2 31), 2500⟩]

private theorem quarterLast_accepted : FibEntry.Accepts quarterLast :=
  ⟨by decide, by decide, by decide, by decide⟩

private def quarterNet : IpNet :=
  .v4 (.clamped (.new 10 0 0 0) 8)

theorem tickets_honoured_quarter :
    FibEntry.new quarterLast = .ok (FibEntry.pack quarterLast quarterLast_accepted) ∧
      ((Finset.range 10000).filter fun t =>
        Picks ((FibEntry.pack quarterLast quarterLast_accepted).toC quarterNet) t.toUInt32
          ⟨0, by decide⟩).card = 2500 ∧
      ((Finset.range 10000).filter fun t =>
        Picks ((FibEntry.pack quarterLast quarterLast_accepted).toC quarterNet) t.toUInt32
          ⟨1, by decide⟩).card = 7500 := by
  have built := FibEntry.new_of_accepts quarterLast_accepted
  have honoured := tickets_honoured built quarterNet
  have first := (honoured.1 ⟨0, by decide⟩ (by decide)).1
  have second := (honoured.1 ⟨1, by decide⟩ (by decide)).1
  exact ⟨built, first.trans (by decide), second.trans (by decide)⟩

end Erez.Ebpf
