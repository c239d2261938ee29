import Erez.Daemon.DescentWeights
import Erez.Lib.LargestRemainder

/-! # Distributing weights over the denominator

`quantise` is largest-remainder rounding on checked `u16` arithmetic. Its spec is
one equation: it never panics on weights that sum to one within a unit of the
denominator, and returns the shares in remainder order with the leftover units
given to the first of them. Totals and bounds are read off that equation.
-/

namespace Erez.Daemon.Descent

open Erez.Lib LargestRemainder

/-- What a share was cut from. -/
def Share.scaled (share : Share) : ℚ :=
  share.weight.toNat + share.remainder

def Share.raised (share : Share) : Share :=
  { share with weight := share.weight + 1 }

def sharesOf (order : IterOrder) (weights : Weights) : List Share :=
  (order.iterate weights.entries).map fun e => Share.ofWeight e.1 e.2

def allocatedOf (shares : List Share) : ℕ :=
  (shares.map (·.weight.toNat)).sum

def byRemainder (shares : List Share) : List Share :=
  shares.insertionSort fun a b => b.remainder ≤ a.remainder

theorem byRemainder_perm (shares : List Share) : (byRemainder shares).Perm shares :=
  List.perm_insertionSort _ shares

theorem cast_weightDenominator : (weightDenominator.toNat : ℚ) = 10000 := rfl

@[simp]
theorem scaled_ofWeight (nh : Nexthop) (w : ℚ) :
    (Share.ofWeight nh w).scaled = w * weightDenominator.toNat := by
  simp [Share.scaled, Share.ofWeight]

theorem toNat_asU16 {x : ℚ} (nonneg : 0 ≤ x) (small : x < 65536) :
    ((asU16 x).toNat : ℚ) ≤ x ∧ x < (asU16 x).toNat + 1 := by
  have floorNonneg : 0 ≤ ⌊x⌋ := Int.floor_nonneg.mpr nonneg
  have floorSmall : ⌊x⌋ < 65536 := Int.floor_lt.mpr (by exact_mod_cast small)
  have cast : ((asU16 x).toNat : ℚ) = ⌊x⌋ := by
    have nat : (asU16 x).toNat = ⌊x⌋.toNat := by
      simp only [asU16, UInt16.toNat_ofNat']
      omega
    rw [nat]
    exact_mod_cast congrArg (Int.cast (R := ℚ)) (Int.toNat_of_nonneg floorNonneg)
  rw [cast]
  exact ⟨Int.floor_le x, Int.lt_floor_add_one x⟩

theorem checkedAdd_ok {a b : UInt16} (fits : a.toNat + b.toNat < 65536) :
    checkedAdd a b = .ok (a + b) ∧ (a + b).toNat = a.toNat + b.toNat := by
  refine ⟨if_pos fits, ?_⟩
  rw [UInt16.toNat_add, Nat.mod_eq_of_lt (by simpa using fits)]

theorem sumWeights_ok (shares : List Share) (acc : UInt16)
    (fits : acc.toNat + allocatedOf shares < 65536) :
    ∃ total, sumWeights shares acc = .ok total ∧ total.toNat = acc.toNat + allocatedOf shares := by
  induction shares generalizing acc with
  | nil => exact ⟨acc, rfl, by simp [allocatedOf]⟩
  | cons share rest ih =>
      simp only [allocatedOf, List.map_cons, List.sum_cons] at fits ih ⊢
      obtain ⟨added, sum⟩ := checkedAdd_ok (a := acc) (b := share.weight) (by omega)
      obtain ⟨total, rest, value⟩ := ih (acc + share.weight) (by omega)
      refine ⟨total, ?_, by omega⟩
      rw [sumWeights, added]
      exact rest

theorem topUp_ok {leftover : ℕ} {shares : List Share} (enough : leftover ≤ shares.length)
    (fits : ∀ share ∈ shares, share.weight.toNat < 65535) :
    topUp leftover shares = .ok (raiseFirst leftover Share.raised shares) := by
  induction shares generalizing leftover with
  | nil =>
      rw [Nat.le_zero.mp enough]
      rfl
  | cons share rest ih =>
      cases leftover with
      | zero => rfl
      | succ leftover =>
          have room := fits share List.mem_cons_self
          have added := (checkedAdd_ok (a := share.weight) (b := 1) (by simp; omega)).1
          have later := ih (Nat.le_of_succ_le_succ enough) fun other member =>
            fits other (List.mem_cons_of_mem share member)
          rw [topUp, added, later]
          rfl

/-- The weights `quantise` may be given: on the simplex up to rounding noise. -/
structure Quantisable (weights : Weights) : Prop where
  nonneg : ∀ w ∈ weights.values, 0 ≤ w
  close : |weights.values.sum * weightDenominator.toNat - weightDenominator.toNat| < 1
  countable : weights.keys.length < 65536

/-- As far as the arithmetic goes, however many weights there are. -/
structure Balanced (weights : Weights) : Prop where
  nonneg : ∀ w ∈ weights.values, 0 ≤ w
  close : |weights.values.sum * weightDenominator.toNat - weightDenominator.toNat| < 1

section Spec

variable {order : IterOrder} {weights : Weights}

theorem Quantisable.balanced (input : Quantisable weights) : Balanced weights :=
  ⟨input.nonneg, input.close⟩

theorem sharesOf_perm (order : IterOrder) (weights : Weights) :
    (sharesOf order weights).Perm (weights.entries.map fun e => Share.ofWeight e.1 e.2) :=
  (order.iterate_perm _).map _

theorem nexthops_sharesOf (order : IterOrder) (weights : Weights) :
    ((sharesOf order weights).map (·.nexthop)).Perm weights.keys := by
  refine ((sharesOf_perm order weights).map _).trans ?_
  rw [List.map_map]
  rfl

theorem length_sharesOf (order : IterOrder) (weights : Weights) :
    (sharesOf order weights).length = weights.keys.length := by
  simpa using (nexthops_sharesOf order weights).length_eq

theorem sum_scaled (order : IterOrder) (weights : Weights) :
    ((sharesOf order weights).map Share.scaled).sum =
      weights.values.sum * weightDenominator.toNat := by
  rw [((sharesOf_perm order weights).map _).sum_eq, List.map_map]
  simp only [Function.comp_def, scaled_ofWeight, List.sum_map_mul_right]
  rfl

theorem mem_sharesOf {share : Share} (h : share ∈ sharesOf order weights) :
    ∃ w, weights.get? share.nexthop = some w ∧ w ∈ weights.values ∧
      share = Share.ofWeight share.nexthop w := by
  obtain ⟨e, member, rfl⟩ := List.mem_map.mp ((sharesOf_perm order weights).mem_iff.mp h)
  exact ⟨e.2, FiniteMap.get?_of_mem_entries member, List.mem_map_of_mem member, rfl⟩

theorem scaled_lt (input : Balanced weights) {w : ℚ} (h : w ∈ weights.values) :
    w * weightDenominator.toNat < 65536 := by
  have part : w ≤ weights.values.sum := List.single_le_sum input.nonneg w h
  have beyond := (abs_lt.mp input.close).2
  rw [cast_weightDenominator] at beyond ⊢
  linarith

theorem roundsDown_sharesOf (input : Balanced weights) :
    RoundsDown (fun share : Share => share.weight.toNat) Share.scaled (sharesOf order weights) := by
  intro share member
  obtain ⟨w, -, value, cut⟩ := mem_sharesOf member
  have nonneg : 0 ≤ w * weightDenominator.toNat :=
    mul_nonneg (input.nonneg w value) (Nat.cast_nonneg _)
  rw [cut, scaled_ofWeight]
  exact toNat_asU16 nonneg (scaled_lt input value)

theorem allocated_bounds (order : IterOrder) (input : Balanced weights) :
    allocatedOf (sharesOf order weights) ≤ weightDenominator.toNat ∧
      weightDenominator.toNat - allocatedOf (sharesOf order weights) ≤
        (sharesOf order weights).length :=
  (roundsDown_sharesOf input).leftover (by rw [sum_scaled]; exact input.close)

/-- The sum of the floors and what it leaves of the denominator. -/
theorem allocation (order : IterOrder) (input : Balanced weights) :
    ∃ allocated, sumWeights (sharesOf order weights) 0 = .ok allocated ∧
      allocated.toNat = allocatedOf (sharesOf order weights) ∧
      checkedSub weightDenominator allocated = .ok (weightDenominator - allocated) ∧
      (weightDenominator - allocated).toNat =
        weightDenominator.toNat - allocatedOf (sharesOf order weights) := by
  have under := (allocated_bounds order input).1
  have denominator : weightDenominator.toNat = 10000 := rfl
  obtain ⟨allocated, summed, allocatedIs⟩ := sumWeights_ok (sharesOf order weights) 0 (by
    simp only [UInt16.toNat_zero]
    omega)
  rw [UInt16.toNat_zero, Nat.zero_add] at allocatedIs
  refine ⟨allocated, summed, allocatedIs, if_pos (by omega), ?_⟩
  rw [UInt16.toNat_sub_of_le _ _ (UInt16.le_iff_toNat_le.mpr (by omega)), allocatedIs]

theorem weight_le_allocated {shares : List Share} {share : Share} (h : share ∈ shares) :
    share.weight.toNat ≤ allocatedOf shares :=
  List.single_le_sum (fun _ _ => Nat.zero_le _) _ (List.mem_map_of_mem h)

/-- The shares in remainder order, with the leftover units handed out. -/
def toppedOf (order : IterOrder) (weights : Weights) : List Share :=
  raiseFirst (weightDenominator.toNat - allocatedOf (sharesOf order weights)) Share.raised
    (byRemainder (sharesOf order weights))

theorem mem_byRemainder {shares : List Share} {share : Share} :
    share ∈ byRemainder shares ↔ share ∈ shares :=
  (byRemainder_perm shares).mem_iff

/-- Nothing in `quantise` overflows. It returns unless the assertion fails, which compares
    with the number of shares cut to 16 bits. -/
theorem quantise_eq_ite (order : IterOrder) (input : Balanced weights) :
    quantise order weights =
      if weightDenominator.toNat - allocatedOf (sharesOf order weights) ≤
          weights.keys.length % 65536 then
        .ok ((toppedOf order weights).map fun share => ⟨share.nexthop, share.weight⟩)
      else .error .debugAssertion := by
  obtain ⟨under, leftoverFits⟩ := allocated_bounds order input
  obtain ⟨allocated, summed, -, subtracted, leftoverIs⟩ := allocation order input
  have asserted : weightDenominator - allocated ≤ UInt16.ofNat (sharesOf order weights).length ↔
      weightDenominator.toNat - allocatedOf (sharesOf order weights) ≤
        weights.keys.length % 65536 := by
    rw [UInt16.le_iff_toNat_le, leftoverIs, UInt16.toNat_ofNat', length_sharesOf]
  have enough : (weightDenominator - allocated).toNat ≤
      (byRemainder (sharesOf order weights)).length := by
    rw [leftoverIs, (byRemainder_perm _).length_eq]
    exact leftoverFits
  have denominator : weightDenominator.toNat = 10000 := rfl
  have raised := topUp_ok enough (by
    intro share member
    have := weight_le_allocated (mem_byRemainder.mp member)
    omega)
  have unfolded : quantise order weights = (do
      let allocated ← sumWeights (sharesOf order weights) 0
      let leftover ← checkedSub weightDenominator allocated
      if ¬ leftover ≤ UInt16.ofNat (sharesOf order weights).length then
        .error .debugAssertion
      let topped ← topUp leftover.toNat (byRemainder (sharesOf order weights))
      .ok (topped.map fun share => ⟨share.nexthop, share.weight⟩)) := rfl
  rw [unfolded, summed]
  by_cases fits : weightDenominator.toNat - allocatedOf (sharesOf order weights) ≤
      weights.keys.length % 65536
  · rw [if_pos fits]
    simp only [bind, Except.bind, subtracted, asserted, fits, not_true_eq_false, if_false, raised]
    rw [leftoverIs]
    rfl
  · rw [if_neg fits]
    simp only [bind, Except.bind, subtracted, asserted, fits, not_false_eq_true, if_true]

/-- With a number of shares that 16 bits can hold, this is what `quantise` returns. -/
theorem quantise_eq (order : IterOrder) (input : Quantisable weights) :
    quantise order weights =
      .ok ((toppedOf order weights).map fun share => ⟨share.nexthop, share.weight⟩) := by
  rw [quantise_eq_ite order input.balanced, Nat.mod_eq_of_lt input.countable, if_pos]
  rw [← length_sharesOf order]
  exact (allocated_bounds order input.balanced).2

theorem raised_toNat (input : Balanced weights) {share : Share}
    (h : share ∈ byRemainder (sharesOf order weights)) :
    share.raised.weight.toNat = share.weight.toNat + 1 := by
  have bound := weight_le_allocated (mem_byRemainder.mp h)
  have under := (allocated_bounds order input).1
  have denominator : weightDenominator.toNat = 10000 := rfl
  exact (checkedAdd_ok (a := share.weight) (b := 1) (by simp; omega)).2

theorem nexthops_toppedOf (order : IterOrder) (weights : Weights) :
    ((toppedOf order weights).map (·.nexthop)).Perm weights.keys := by
  rw [toppedOf, map_raiseFirst _ Share.raised Share.nexthop _ fun _ _ => rfl]
  exact ((byRemainder_perm _).map _).trans (nexthops_sharesOf order weights)

theorem sum_toppedOf (order : IterOrder) (input : Balanced weights) :
    ((toppedOf order weights).map (·.weight.toNat)).sum = weightDenominator.toNat := by
  obtain ⟨under, leftoverFits⟩ := allocated_bounds order input
  have same : ((byRemainder (sharesOf order weights)).map (·.weight.toNat)).sum =
      allocatedOf (sharesOf order weights) := ((byRemainder_perm _).map _).sum_eq
  rw [toppedOf, sum_raiseFirst (fun share : Share => share.weight.toNat)
    (by rw [(byRemainder_perm _).length_eq]; exact leftoverFits)
    (fun share member => raised_toNat input member), same]
  omega

/-- A returned weight is the floor of the scaled weight, or one more. -/
theorem weight_toppedOf (input : Balanced weights) {share : Share}
    (h : share ∈ toppedOf order weights) :
    ∃ w, weights.get? share.nexthop = some w ∧ w ∈ weights.values ∧
      (share.weight.toNat = (asU16 (w * weightDenominator.toNat)).toNat ∨
        share.weight.toNat = (asU16 (w * weightDenominator.toNat)).toNat + 1) := by
  obtain ⟨before, member, change⟩ := mem_raiseFirst h
  obtain ⟨w, found, value, cut⟩ := mem_sharesOf (mem_byRemainder.mp member)
  have floor : before.weight = asU16 (w * weightDenominator.toNat) := by
    rw [cut]
    rfl
  rcases change with rfl | rfl
  · refine ⟨w, found, value, .inr ?_⟩
    rw [raised_toNat input member, floor]
  · exact ⟨w, found, value, .inl (by rw [floor])⟩

theorem byRemainder_sorted (shares : List Share) :
    (byRemainder shares).Pairwise fun a b =>
      b.scaled - (b.weight.toNat : ℚ) ≤ a.scaled - (a.weight.toNat : ℚ) := by
  refine (List.pairwise_insertionSort (fun a b : Share => b.remainder ≤ a.remainder) shares).imp ?_
  intro a b smaller
  simpa only [Share.scaled, add_sub_cancel_left] using smaller

/-- A weight that is a whole number of units is returned as it is: its share lost
    nothing, so it is not among those that get a unit back. -/
theorem weight_of_whole (input : Balanced weights) (total : weights.values.sum = 1)
    {share : Share} (h : share ∈ toppedOf order weights) {units : ℕ}
    (whole : weights.get? share.nexthop = some ((units : ℚ) / weightDenominator.toNat)) :
    share.weight.toNat = units := by
  have rounds : RoundsDown (fun share : Share => share.weight.toNat) Share.scaled
      (byRemainder (sharesOf order weights)) :=
    fun other member => roundsDown_sharesOf input other (mem_byRemainder.mp member)
  have denominator : (weightDenominator.toNat : ℚ) ≠ 0 := by decide +kernel
  have exact : ∀ before ∈ byRemainder (sharesOf order weights),
      before.nexthop = share.nexthop → before.scaled = units := by
    intro before member same
    obtain ⟨w, found, -, cut⟩ := mem_sharesOf (mem_byRemainder.mp member)
    rw [same, whole, Option.some.injEq] at found
    rw [cut, scaled_ofWeight, ← found, div_mul_cancel₀ _ denominator]
  have floored : ∀ before ∈ byRemainder (sharesOf order weights),
      before.nexthop = share.nexthop → before.weight.toNat = units := by
    intro before member same
    obtain ⟨below, above⟩ := rounds before member
    rw [exact before member same] at below above
    have low : before.weight.toNat ≤ units := by exact_mod_cast below
    have high : units < before.weight.toNat + 1 := by exact_mod_cast above
    omega
  cases List.mem_append.mp h with
  | inr kept => exact floored share (List.mem_of_mem_drop kept) rfl
  | inl topped =>
      obtain ⟨before, front, raised⟩ := List.mem_map.mp topped
      have member := List.mem_of_mem_take front
      have same : before.nexthop = share.nexthop := by rw [← raised]; rfl
      have under := (allocated_bounds order input).1
      have left : ((byRemainder (sharesOf order weights)).map Share.scaled).sum =
          ((byRemainder (sharesOf order weights)).map (·.weight.toNat)).sum +
            (weightDenominator.toNat - allocatedOf (sharesOf order weights) : ℕ) := by
        rw [((byRemainder_perm _).map _).sum_eq, ((byRemainder_perm _).map _).sum_eq, sum_scaled,
          total, one_mul, Nat.cast_sub under, allocatedOf]
        ring
      have lost := RoundsDown.lt_of_mem_take rounds (byRemainder_sorted _) left front
      rw [exact before member same, floored before member same] at lost
      exact absurd lost (lt_irrefl _)

end Spec

end Erez.Daemon.Descent
