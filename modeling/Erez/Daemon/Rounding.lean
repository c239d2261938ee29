import Erez.Daemon.Convergence

/-! # `quantise` rounds to the largest remainders

Weights that sum to one within a unit of the denominator are rounded down and then
brought up to the exact total by one unit each, largest remainder first. Only the
assertion about the units left over can fail on the way, since it compares with the
number of weights cut to 16 bits; it never does where 16 bits hold that number, and the
tick passes at most `MAX_NEXTHOPS` of them.
-/

namespace Erez.Daemon.Descent

open Erez.Lib LargestRemainder

/-- Largest-remainder shares of the denominator. -/
structure Rounded (weights : Weights) (weighted : List WeightedNexthop) : Prop where
  once : (weighted.map (·.nexthop)).Perm weights.keys
  total : (weighted.map (·.weight.toNat)).sum = 10000
  floors : ∀ w ∈ weighted, w.weight.toNat = ⌊10000 * weight weights w.nexthop⌋₊ ∨
    w.weight.toNat = ⌊10000 * weight weights w.nexthop⌋₊ + 1
  ordered : ∀ a ∈ weighted, ∀ b ∈ weighted,
    weight weights b.nexthop < weight weights a.nexthop → b.weight ≤ a.weight
  probing : (∀ w ∈ weights.values, 1 / 100 ≤ w) → ∀ w ∈ weighted, 100 ≤ w.weight.toNat

/-- Neither the sum of the floors nor the subtraction overflows, and what is left over is
    at most one unit per weight. -/
def Allocates (order : IterOrder) (weights : Weights) : Prop :=
  ∃ allocated leftover, sumWeights (sharesOf order weights) 0 = .ok allocated ∧
    allocated.toNat ≤ 10000 ∧ checkedSub weightDenominator allocated = .ok leftover ∧
    leftover.toNat ≤ weights.keys.length

/-- The floors fit, and `quantise` returns the shares. -/
structure RoundsExactly (order : IterOrder) (weights : Weights) : Prop where
  allocates : Allocates order weights
  returns : ∃ weighted, quantise order weights = .ok weighted ∧ Rounded weights weighted

section

variable {order : IterOrder} {weights : Weights}

theorem toNat_asU16_eq_floor (input : Balanced weights) {w : ℚ} (h : w ∈ weights.values) :
    (asU16 (w * weightDenominator.toNat)).toNat = ⌊10000 * w⌋₊ := by
  have nonneg : 0 ≤ w * weightDenominator.toNat :=
    mul_nonneg (input.nonneg w h) (Nat.cast_nonneg _)
  have bounds := toNat_asU16 nonneg (scaled_lt input h)
  rw [← (Nat.floor_eq_iff nonneg).mpr bounds, cast_weightDenominator, mul_comm]

theorem allocatedOf_eq (order : IterOrder) (input : Balanced weights) :
    allocatedOf (sharesOf order weights) =
      (weights.values.map fun w => ⌊10000 * w⌋₊).sum := by
  rw [allocatedOf, ((sharesOf_perm order weights).map _).sum_eq, List.map_map, FiniteMap.values,
    List.map_map]
  congr 1
  refine List.map_congr_left fun e member => ?_
  exact toNat_asU16_eq_floor input (List.mem_map_of_mem member)

/-- What a share was cut from, by its nexthop. -/
theorem scaled_eq {share : Share} (h : share ∈ byRemainder (sharesOf order weights)) :
    share.scaled = weight weights share.nexthop * weightDenominator.toNat := by
  obtain ⟨w, found, -, cut⟩ := mem_sharesOf (mem_byRemainder.mp h)
  rw [weight_eq found, cut, scaled_ofWeight]

/-- A larger weight never gets fewer units. -/
theorem toppedOf_ordered (input : Balanced weights) {a b : Share}
    (ha : a ∈ toppedOf order weights) (hb : b ∈ toppedOf order weights)
    (less : weight weights b.nexthop < weight weights a.nexthop) :
    b.weight.toNat ≤ a.weight.toNat := by
  have rounds : RoundsDown (fun share : Share => share.weight.toNat)
      (fun share => weight weights share.nexthop * weightDenominator.toNat)
      (byRemainder (sharesOf order weights)) := by
    intro share member
    have bounds := roundsDown_sharesOf input share (mem_byRemainder.mp member)
    rwa [scaled_eq member] at bounds
  have sorted : (byRemainder (sharesOf order weights)).Pairwise fun a b =>
      weight weights b.nexthop * weightDenominator.toNat - (b.weight.toNat : ℚ) ≤
        weight weights a.nexthop * weightDenominator.toNat - (a.weight.toNat : ℚ) := by
    refine (byRemainder_sorted _).imp_of_mem fun {a b} first second smaller => ?_
    rwa [scaled_eq first, scaled_eq second] at smaller
  have denominator : (0 : ℚ) < weightDenominator.toNat := Nat.cast_pos.mpr (by decide)
  exact rounds.raiseFirst_mono sorted (fun share member => raised_toNat input member)
    (fun _ _ => rfl) ha hb (mul_lt_mul_of_pos_right less denominator)

/-- The list that `quantise` returns when the assertion holds. -/
theorem rounded_weightedOf (order : IterOrder) (input : Balanced weights) :
    Rounded weights (weightedOf order weights) where
  once := nexthops_weightedOf order weights
  total := sum_weightedOf order input
  floors := by
    intro weighted member
    obtain ⟨share, listed, made⟩ := List.mem_map.mp member
    obtain ⟨w, found, value, cut⟩ := weight_toppedOf input listed
    subst made
    dsimp only
    rw [weight_eq found, ← toNat_asU16_eq_floor input value]
    exact cut
  ordered := by
    intro a memberA b memberB less
    obtain ⟨shareA, listedA, madeA⟩ := List.mem_map.mp memberA
    obtain ⟨shareB, listedB, madeB⟩ := List.mem_map.mp memberB
    subst madeA madeB
    exact UInt16.le_iff_toNat_le.mpr (toppedOf_ordered input listedA listedB less)
  probing := by
    intro floor weighted member
    exact hundred_le_weightedOf input floor member

theorem allocates_of_balanced (order : IterOrder) (input : Balanced weights) :
    Allocates order weights := by
  obtain ⟨under, leftoverFits⟩ := allocated_bounds order input
  obtain ⟨allocated, summed, allocatedIs, subtracted, leftoverIs⟩ := allocation order input
  rw [length_sharesOf] at leftoverFits
  exact ⟨allocated, weightDenominator - allocated, summed, allocatedIs.trans_le under, subtracted,
    leftoverIs.trans_le leftoverFits⟩

/-- What the assertion lets through: the floors and one unit for each weight that 16 bits
    count reach the denominator. -/
theorem leftover_le_iff (order : IterOrder) (input : Balanced weights) :
    weightDenominator.toNat - allocatedOf (sharesOf order weights) ≤
        weights.keys.length % 65536 ↔
      10000 ≤ (weights.values.map fun w => ⌊10000 * w⌋₊).sum + weights.keys.length % 65536 := by
  have denominator : weightDenominator.toNat = 10000 := rfl
  rw [← allocatedOf_eq order input]
  omega

theorem roundsExactly_iff (order : IterOrder) (input : Balanced weights) :
    RoundsExactly order weights ↔
      10000 ≤ (weights.values.map fun w => ⌊10000 * w⌋₊).sum + weights.keys.length % 65536 := by
  have returned := quantise_eq_ite order input
  rw [← leftover_le_iff order input]
  constructor
  · intro exact
    obtain ⟨weighted, result, -⟩ := exact.returns
    rw [returned] at result
    by_contra full
    rw [if_neg full] at result
    cases result
  · intro enough
    rw [if_pos enough] at returned
    exact ⟨allocates_of_balanced order input, _, returned, rounded_weightedOf order input⟩

/-- Fewer weights than 16 bits can count are always enough for the assertion. -/
theorem roundsExactly_of_countable (order : IterOrder) (input : Balanced weights)
    (countable : weights.keys.length < 65536) : RoundsExactly order weights := by
  have leftover := (allocated_bounds order input).2
  rw [length_sharesOf] at leftover
  rw [roundsExactly_iff order input, ← leftover_le_iff order input, Nat.mod_eq_of_lt countable]
  exact leftover

/-- Whatever `quantise` returns is rounded, and only the assertion keeps it from returning. -/
theorem quantise_outcome (order : IterOrder) (input : Balanced weights) :
    (∀ weighted, quantise order weights = .ok weighted → Rounded weights weighted) ∧
      ∀ panic, quantise order weights = .error panic → panic = .debugAssertion := by
  have outcome := quantise_eq_ite order input
  split at outcome
  · refine ⟨fun weighted result => ?_, fun panic result => ?_⟩
    · rw [outcome, Except.ok.injEq] at result
      subst result
      exact rounded_weightedOf order input
    · rw [outcome] at result
      cases result
  · refine ⟨fun weighted result => ?_, fun panic result => ?_⟩
    · rw [outcome] at result
      cases result
    · rw [outcome, Except.error.injEq] at result
      exact result.symm

end

theorem balanced_of_close {weights : Weights} (nonneg : ∀ w ∈ weights.values, 0 ≤ w)
    (close : |10000 * weights.values.sum - 10000| < 1) : Balanced weights where
  nonneg := nonneg
  close := by
    rwa [cast_weightDenominator, mul_comm]

/-- `quantise` is largest-remainder rounding, up to the 16 bits of its assertion. -/
theorem quantise_rounds (order : IterOrder) (weights : Weights)
    (nonneg : ∀ w ∈ weights.values, 0 ≤ w) (close : |10000 * weights.values.sum - 10000| < 1) :
    Allocates order weights ∧
      (∀ weighted, quantise order weights = .ok weighted → Rounded weights weighted) ∧
      (∀ panic, quantise order weights = .error panic → panic = .debugAssertion) ∧
      (RoundsExactly order weights ↔
        10000 ≤ (weights.values.map fun w => ⌊10000 * w⌋₊).sum + weights.keys.length % 65536) ∧
      (weights.keys.length < 65536 → RoundsExactly order weights) := by
  have input := balanced_of_close nonneg close
  obtain ⟨rounded, onlyAssertion⟩ := quantise_outcome order input
  exact ⟨allocates_of_balanced order input, rounded, onlyAssertion, roundsExactly_iff order input,
    roundsExactly_of_countable order input⟩

section Noisy

private def noisyHop (i : UInt8) : Nexthop := .v4 (.new 192 0 2 i)

/-- Thirds, one of them cut off after five digits. -/
private def noisyThirds : Weights :=
  (((∅ : Weights).insert (noisyHop 81) (1 / 3)).insert (noisyHop 82) (1 / 3)).insert (noisyHop 83)
    (33333 / 100000)

theorem quantise_rounds_noisy : RoundsExactly .stored noisyThirds := by
  have nonneg : ∀ w ∈ noisyThirds.values, 0 ≤ w := by decide +kernel
  have close : |10000 * noisyThirds.values.sum - 10000| < 1 := by
    have total : noisyThirds.values.sum = 299999 / 300000 := by decide +kernel
    rw [total]
    norm_num [abs_lt]
  obtain ⟨-, -, -, -, countable⟩ := quantise_rounds .stored noisyThirds nonneg close
  exact countable (by decide)

end Noisy

section Crowd

/-- The `i`-th of the addresses from 10.0.0.0 on. -/
private def crowdHop (i : ℕ) : Nexthop := .v4 (.new 10 0 (i / 256).toUInt8 (i % 256).toUInt8)

private def crowd (n : ℕ) : List Nexthop := (List.range n).map crowdHop

private theorem crowd_nodup {n : ℕ} (few : n ≤ 65536) : (crowd n).Nodup := by
  refine List.Nodup.map_on ?_ List.nodup_range
  intro i hi j hj same
  rw [List.mem_range] at hi hj
  have octets : (i / 256).toUInt8 = (j / 256).toUInt8 ∧ (i % 256).toUInt8 = (j % 256).toUInt8 := by
    simpa [crowdHop, Ipv4Addr.new] using same
  obtain ⟨high, low⟩ := octets
  have first := congrArg UInt8.toNat high
  have second := congrArg UInt8.toNat low
  simp only [Nat.toUInt8, UInt8.toNat_ofNat'] at first second
  omega

private theorem length_keys_crowd {n : ℕ} (few : n ≤ 65536) :
    (uniform (crowd n)).keys.length = n := by
  rw [card_keys fun nh => mem_uniform, List.toFinset_card_of_nodup (crowd_nodup few), crowd,
    List.length_map, List.length_range]

private theorem values_crowd {n : ℕ} {w : ℚ} (member : w ∈ (uniform (crowd n)).values) :
    w = 1 / n := by
  rw [FiniteMap.values_eq_lookups _ 0] at member
  obtain ⟨nh, listed, value⟩ := List.mem_map.mp member
  have present : nh ∈ crowd n := mem_uniform.mp (AList.mem_keys.mpr listed)
  rw [get?_uniform present, Option.getD_some, crowd, List.length_map, List.length_range] at value
  exact value.symm

private theorem sum_crowd {n : ℕ} (few : n ≤ 65536) (some_ : 0 < n) :
    (uniform (crowd n)).values.sum = 1 := by
  have positive : (n : ℚ) ≠ 0 := by exact_mod_cast some_.ne'
  rw [sum_uniform, List.toFinset_card_of_nodup (crowd_nodup few), crowd, List.length_map,
    List.length_range, div_self positive]

/-- 65536 equal weights: every unit is left over, and 16 bits count no weight at all. -/
theorem crowd_fails_assertion :
    (uniform (crowd 65536)).keys.length = 65536 ∧
      (∀ w ∈ (uniform (crowd 65536)).values, 0 ≤ w) ∧
      |10000 * (uniform (crowd 65536)).values.sum - 10000| < 1 ∧
      ∀ order, quantise order (uniform (crowd 65536)) = .error .debugAssertion ∧
        ¬ RoundsExactly order (uniform (crowd 65536)) := by
  have count : (uniform (crowd 65536)).keys.length = 65536 := length_keys_crowd le_rfl
  have nonneg : ∀ w ∈ (uniform (crowd 65536)).values, 0 ≤ w := by
    intro w member
    rw [values_crowd member]
    positivity
  have close : |10000 * (uniform (crowd 65536)).values.sum - 10000| < 1 := by
    rw [sum_crowd le_rfl (by norm_num)]
    norm_num
  have input := balanced_of_close nonneg close
  have floors : ((uniform (crowd 65536)).values.map fun w => ⌊10000 * w⌋₊).sum = 0 := by
    refine List.sum_eq_zero fun units member => ?_
    obtain ⟨w, value, floor⟩ := List.mem_map.mp member
    rw [← floor, values_crowd value, Nat.floor_eq_zero]
    norm_num
  refine ⟨count, nonneg, close, fun order => ?_⟩
  have fails : quantise order (uniform (crowd 65536)) = .error .debugAssertion := by
    rw [quantise_eq_ite order input, allocatedOf_eq order input, floors, count]
    rfl
  refine ⟨fails, fun exact => ?_⟩
  obtain ⟨weighted, returned, -⟩ := exact.returns
  rw [fails] at returned
  cases returned

end Crowd

end Erez.Daemon.Descent
