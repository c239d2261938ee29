import Erez.Lib.SimplexProjection

/-! # Projected online gradient descent

For the regret only two facts about the iteration enter: each new point is
obtained from a gradient step, and it is no farther from the comparator than the
unprojected step was. Everything else is the telescoping of squared distances.
Against constant costs with one cheapest coordinate, the iteration on a floored
simplex ends at the vertex of that coordinate after finitely many steps. A coordinate
without a cost that starts each step on the floor stays there only if no mass is lost.
-/

namespace Erez.Lib.OnlineDescent

open SimplexProjection

variable {K : Type*} [Field K] [LinearOrder K] [IsStrictOrderedRing K] {ι : Type*}

def inner (s : Finset ι) (x y : ι → K) : K :=
  ∑ i ∈ s, x i * y i

omit [LinearOrder K] [IsStrictOrderedRing K] in
/-- A gradient step changes the squared distance to `u` by a linear and a quadratic term. -/
theorem sqDist_gradient (s : Finset ι) (eta : K) (w g u : ι → K) :
    sqDist s (fun i => w i - eta * g i) u =
      sqDist s w u - 2 * eta * inner s g (fun i => w i - u i) + eta ^ 2 * inner s g g := by
  simp only [sqDist, inner, Finset.mul_sum, ← Finset.sum_add_distrib, ← Finset.sum_sub_distrib]
  refine Finset.sum_congr rfl fun i _ => ?_
  ring

/-- Distances telescope: what the comparator gains in `T` rounds is bounded by
    the initial distance and the gradients' sizes. -/
theorem sqDist_telescope {s : Finset ι} {eta : K} {w g : ℕ → ι → K} {u : ι → K} (T : ℕ)
    (closer : ∀ t < T, sqDist s (w (t + 1)) u ≤ sqDist s (fun i => w t i - eta * g t i) u) :
    2 * eta * ∑ t ∈ Finset.range T, inner s (g t) (fun i => w t i - u i) + sqDist s (w T) u ≤
      sqDist s (w 0) u + eta ^ 2 * ∑ t ∈ Finset.range T, inner s (g t) (g t) := by
  induction T with
  | zero => simp
  | succ T ih =>
      have before := ih fun t ht => closer t (Nat.lt_succ_of_lt ht)
      have last := closer T (Nat.lt_succ_self T)
      rw [sqDist_gradient] at last
      rw [Finset.sum_range_succ, Finset.sum_range_succ]
      linarith

theorem regret_le {s : Finset ι} {eta : K} (positive : 0 < eta) {w g : ℕ → ι → K} {u : ι → K}
    (T : ℕ)
    (closer : ∀ t < T, sqDist s (w (t + 1)) u ≤ sqDist s (fun i => w t i - eta * g t i) u) :
    ∑ t ∈ Finset.range T, inner s (g t) (fun i => w t i - u i) ≤
      sqDist s (w 0) u / (2 * eta) + eta / 2 * ∑ t ∈ Finset.range T, inner s (g t) (g t) := by
  have telescoped := sqDist_telescope T closer
  have final := sqDist_nonneg s (w T) u
  have bound : sqDist s (w 0) u / (2 * eta) +
      eta / 2 * ∑ t ∈ Finset.range T, inner s (g t) (g t) =
      (sqDist s (w 0) u + eta ^ 2 * ∑ t ∈ Finset.range T, inner s (g t) (g t)) / (2 * eta) := by
    field_simp
  rw [bound, le_div_iff₀ (by linarith)]
  linarith

/-! ## Constant costs -/

/-- One projected step against the costs `g`. -/
structure Descends (floor mass eta : K) (s : Finset ι) (g w w' : ι → K) : Prop where
  clamped : ∃ tau, ∀ i ∈ s, w' i = clamp floor tau (w i - eta * g i)
  before : Feasible floor mass s w
  after : Feasible floor mass s w'

/-- A point with all weight that can be moved on `c`. -/
def Concentrated (floor : K) (s : Finset ι) (c : ι) (w : ι → K) : Prop :=
  ∀ i ∈ s, i ≠ c → w i = floor

namespace Descends

variable {floor mass eta : K} {s : Finset ι} {g w w' : ι → K} {c : ι}

/-- The step seen from the cheapest coordinate: it gains, and a coordinate that
    costs more gains less by the difference, or is floored. -/
theorem exists_gain (step : Descends floor mass eta s g w w') (loose : s.card • floor < mass)
    (rate : 0 < eta) (member : c ∈ s) (cheapest : ∀ i ∈ s, g c ≤ g i) :
    ∃ gain, 0 ≤ gain ∧ w' c = w c + gain ∧
      ∀ i ∈ s, w' i = max (w i + gain - eta * (g i - g c)) floor := by
  obtain ⟨tau, clamped⟩ := step.clamped
  let gain := -(eta * g c) - tau
  have moved : ∀ i ∈ s, w' i = max (w i + gain - eta * (g i - g c)) floor := by
    intro i hi
    rw [clamped i hi, clamp, ← max_add_add_right, zero_add]
    congr 1
    simp only [gain]
    ring
  have nonneg : 0 ≤ gain := by
    by_contra negative
    have negative : gain < 0 := not_le.mp negative
    -- Every coordinate would shrink, and one that is above the floor strictly.
    have bounded : ∀ i ∈ s, w' i ≤ max (w i + gain) floor := by
      intro i hi
      rw [moved i hi]
      have costlier : 0 ≤ eta * (g i - g c) :=
        mul_nonneg rate.le (sub_nonneg.mpr (cheapest i hi))
      exact max_le_max_right floor (by linarith)
    have shrinks : ∀ i ∈ s, w' i ≤ w i := fun i hi =>
      (bounded i hi).trans (max_le (by linarith) (step.before.floor_le i hi))
    obtain ⟨i, hi, above⟩ : ∃ i ∈ s, floor < w i := by
      apply Finset.exists_lt_of_sum_lt
      rw [Finset.sum_const, step.before.total]
      exact loose
    have strictly : w' i < w i := (bounded i hi).trans_lt (max_lt (by linarith) above)
    have total := Finset.sum_lt_sum shrinks ⟨i, hi, strictly⟩
    rw [step.before.total, step.after.total] at total
    exact lt_irrefl mass total
  refine ⟨gain, nonneg, ?_, moved⟩
  rw [moved c member, sub_self, mul_zero, sub_zero]
  exact max_eq_left (by linarith [step.before.floor_le c member])

/-- A step that does not floor all other coordinates moves at least half the
    smallest cost difference onto the cheapest one. -/
theorem concentrated_or_gains [DecidableEq ι] (step : Descends floor mass eta s g w w')
    (loose : s.card • floor < mass) (rate : 0 < eta) (member : c ∈ s) {gap : K} (wide : 0 ≤ gap)
    (cheapest : ∀ i ∈ s, i ≠ c → g c + gap ≤ g i) :
    Concentrated floor s c w' ∨ w c + eta * gap / 2 ≤ w' c := by
  have noCheaper : ∀ i ∈ s, g c ≤ g i := by
    intro i hi
    by_cases here : i = c
    · rw [here]
    · linarith [cheapest i hi here]
  obtain ⟨gain, nonneg, own, moved⟩ := step.exists_gain loose rate member noCheaper
  by_contra neither
  obtain ⟨spread, little⟩ := not_or.mp neither
  obtain ⟨i, hi, other, above⟩ : ∃ i ∈ s, i ≠ c ∧ w' i ≠ floor := by
    simpa [Concentrated] using spread
  have small : gain < eta * gap / 2 := by linarith
  have scaled : ∀ j ∈ s, j ≠ c → eta * gap ≤ eta * (g j - g c) := fun j hj elsewhere =>
    mul_le_mul_of_nonneg_left (by linarith [cheapest j hj elsewhere]) rate.le
  have positive : 0 ≤ eta * gap := mul_nonneg rate.le wide
  have lost : w' i ≤ w i + gain - eta * gap := by
    have kept := moved i hi
    rcases max_choice (w i + gain - eta * (g i - g c)) floor with survives | floored
    · rw [kept, survives]
      linarith [scaled i hi other]
    · exact absurd (kept.trans floored) above
  have shrinks : ∀ j ∈ (s.erase c).erase i, w' j ≤ w j := by
    intro j hj
    have elsewhere : j ≠ c := Finset.ne_of_mem_erase (Finset.mem_of_mem_erase hj)
    have hs : j ∈ s := Finset.mem_of_mem_erase (Finset.mem_of_mem_erase hj)
    rw [moved j hs]
    exact max_le (by linarith [scaled j hs elsewhere]) (step.before.floor_le j hs)
  have split : ∀ v : ι → K,
      ∑ j ∈ s, v j = v c + (v i + ∑ j ∈ (s.erase c).erase i, v j) := by
    intro v
    rw [Finset.add_sum_erase _ v (Finset.mem_erase.mpr ⟨other, hi⟩), Finset.add_sum_erase s v member]
  have before := step.before.total
  have after := step.after.total
  rw [split] at before after
  linarith [Finset.sum_le_sum shrinks]

/-- The cheapest coordinate does not lose. -/
theorem cheapest_gains (step : Descends floor mass eta s g w w') (loose : s.card • floor < mass)
    (rate : 0 < eta) (member : c ∈ s) (cheapest : ∀ i ∈ s, g c ≤ g i) : w c ≤ w' c := by
  obtain ⟨gain, nonneg, own, -⟩ := step.exists_gain loose rate member cheapest
  linarith

/-- The dearest coordinate does not gain: what lifted it would lift all others too. -/
theorem dearest_loses (step : Descends floor mass eta s g w w') (rate : 0 < eta) (member : c ∈ s)
    (dearest : ∀ i ∈ s, g i ≤ g c) : w' c ≤ w c := by
  obtain ⟨tau, clamped⟩ := step.clamped
  by_contra gained
  have gained : w c < w' c := not_le.mp gained
  have lifted : 0 < -(eta * g c) - tau := by
    have above := step.before.floor_le c member
    rw [clamped c member, clamp, ← max_add_add_right, zero_add] at gained
    cases lt_max_iff.mp gained with
    | inl moved => linarith
    | inr floored => linarith
  have grows : ∀ i ∈ s, w i < w' i := by
    intro i hi
    have cheaper : eta * g i ≤ eta * g c := mul_le_mul_of_nonneg_left (dearest i hi) rate.le
    rw [clamped i hi, clamp, ← max_add_add_right]
    exact lt_max_of_lt_left (by linarith)
  have total := Finset.sum_lt_sum_of_nonempty ⟨c, member⟩ grows
  rw [step.before.total, step.after.total] at total
  exact lt_irrefl mass total

/-- A coordinate with more weight and lower cost keeps more weight. -/
theorem keeps_order (step : Descends floor mass eta s g w w') (rate : 0 < eta) {i j : ι}
    (hi : i ∈ s) (hj : j ∈ s) (heavier : w j ≤ w i) (cheaper : g i ≤ g j) : w' j ≤ w' i := by
  obtain ⟨tau, clamped⟩ := step.clamped
  have scaled : eta * g i ≤ eta * g j := mul_le_mul_of_nonneg_left cheaper rate.le
  have moved : w j - eta * g j - floor - tau ≤ w i - eta * g i - floor - tau := by linarith
  rw [clamped i hi, clamped j hj]
  exact add_le_add_left (max_le_max_right 0 moved) floor

end Descends

/-! ## Coordinates without a cost -/

section Unmeasured

variable {floor mass eta : K} {s : Finset ι} {g : ι → Option K} {w w' : ι → K}

/-- A step that sends a coordinate without a cost to the floor. -/
def nudged (floor eta : K) (g : Option K) (w : K) : K :=
  match g with
  | some g => w - eta * g
  | none => floor

/-- What the nudge leaves above the floor is at most what was there, and as much only
    for a coordinate that had nothing there or costs nothing. -/
theorem surplus_nudged {g : Option K} {w : K} (rate : 0 < eta) (nonneg : ∀ c ∈ g, 0 ≤ c)
    (above : floor ≤ w) :
    max (nudged floor eta g w - floor) 0 ≤ w - floor ∧
      (max (nudged floor eta g w - floor) 0 = w - floor ↔ w = floor ∨ g = some 0) := by
  cases g with
  | none =>
      simp only [nudged, sub_self, max_self, reduceCtorEq, or_false]
      exact ⟨sub_nonneg.mpr above, by rw [eq_comm, sub_eq_zero]⟩
  | some c =>
      have cost : 0 ≤ eta * c := mul_nonneg rate.le (nonneg c rfl)
      simp only [nudged, Option.some.injEq]
      refine ⟨max_le (by linarith) (by linarith), ?_⟩
      constructor
      · intro same
        cases max_choice (w - eta * c - floor) 0 with
        | inl survives =>
            rw [survives] at same
            have free : eta * c = 0 := by linarith
            exact .inr ((mul_eq_zero.mp free).resolve_left rate.ne')
        | inr floored =>
            rw [floored] at same
            exact .inl (by linarith)
      · intro idle
        cases idle with
        | inl floored => rw [floored, sub_self, max_eq_right (by linarith)]
        | inr free => rw [free, mul_zero, sub_zero, max_eq_left (by linarith)]

/-- The projection keeps the coordinates without a cost at the floor exactly when
    the step took no weight from anyone: what it takes is spread over them too. -/
theorem floored_iff {tau : K}
    (clamped : ∀ i ∈ s, w' i = clamp floor tau (nudged floor eta (g i) (w i)))
    (before : Feasible floor mass s w) (after : Feasible floor mass s w')
    (loose : s.card • floor < mass) (rate : 0 < eta) (nonneg : ∀ i ∈ s, ∀ c ∈ g i, 0 ≤ c) :
    (∀ i ∈ s, g i = none → w' i = floor) ↔
      (∀ i ∈ s, g i ≠ none) ∨ ∀ i ∈ s, w i = floor ∨ g i = some 0 := by
  by_cases all : ∀ i ∈ s, g i ≠ none
  · exact iff_of_true (fun i hi absent => absurd absent (all i hi)) (.inl all)
  push Not at all
  obtain ⟨i, hi, absent⟩ := all
  have surplus : ∀ v : ι → K, ∑ j ∈ s, v j = mass → ∑ j ∈ s, (v j - floor) = mass - s.card • floor := by
    intro v total
    rw [Finset.sum_sub_distrib, total, Finset.sum_const]
  have threshold : ∑ j ∈ s, max (nudged floor eta (g j) (w j) - floor - tau) 0 =
      mass - s.card • floor := by
    rw [← surplus w' after.total]
    refine Finset.sum_congr rfl fun j hj => ?_
    rw [clamped j hj, clamp, add_sub_cancel_right]
  have unmeasured : ∀ j ∈ s, g j = none → (w' j = floor ↔ 0 ≤ tau) := by
    intro j hj none
    rw [clamped j hj, none, nudged, clamp, sub_self, zero_sub, add_eq_right, max_eq_right_iff]
    exact neg_nonpos
  have kept : (∀ j ∈ s, g j = none → w' j = floor) ↔ 0 ≤ tau := by
    constructor
    · exact fun h => (unmeasured i hi absent).mp (h i hi absent)
    · exact fun h j hj none => (unmeasured j hj none).mpr h
  have terms := fun j hj => surplus_nudged rate (nonneg j hj) (before.floor_le j hj)
  rw [kept, threshold_nonneg_iff threshold (sub_pos.mpr loose), ← surplus w before.total]
  constructor
  · intro enough
    have same := (Finset.sum_eq_sum_iff_of_le fun j hj => (terms j hj).1).mp
      (le_antisymm (Finset.sum_le_sum fun j hj => (terms j hj).1) enough)
    exact .inr fun j hj => (terms j hj).2.mp (same j hj)
  · intro condition
    have idle := condition.resolve_left fun all => all i hi absent
    exact Finset.sum_le_sum fun j hj => ((terms j hj).2.mpr (idle j hj)).ge

end Unmeasured

section Concentrated

variable {floor mass : K} {s : Finset ι} {c : ι} [DecidableEq ι]

/-- The floors of the others leave the rest of the mass to `c`, and no more. -/
theorem le_rest {w : ι → K} (feasible : Feasible floor mass s w) (member : c ∈ s) :
    w c ≤ mass - (s.card - 1 : ℕ) • floor := by
  have others : (s.card - 1) • floor ≤ ∑ i ∈ s.erase c, w i := by
    rw [← Finset.card_erase_of_mem member]
    exact Finset.card_nsmul_le_sum _ _ _ fun i hi => feasible.floor_le i (Finset.mem_of_mem_erase hi)
  have total := feasible.total
  rw [← Finset.add_sum_erase s w member] at total
  linarith

theorem concentrated_iff {w : ι → K} (feasible : Feasible floor mass s w) (member : c ∈ s) :
    Concentrated floor s c w ↔ w c = mass - (s.card - 1 : ℕ) • floor := by
  have total := feasible.total
  rw [← Finset.add_sum_erase s w member] at total
  have floors : ∑ _i ∈ s.erase c, floor = (s.card - 1) • floor := by
    rw [Finset.sum_const, Finset.card_erase_of_mem member]
  constructor
  · intro concentrated
    have others : ∑ i ∈ s.erase c, w i = ∑ _i ∈ s.erase c, floor :=
      Finset.sum_congr rfl fun i hi =>
        concentrated i (Finset.mem_of_mem_erase hi) (Finset.ne_of_mem_erase hi)
    linarith
  · intro all i hi other
    have others : ∑ _i ∈ s.erase c, floor = ∑ i ∈ s.erase c, w i := by linarith
    have equal := (Finset.sum_eq_sum_iff_of_le fun i hi =>
      feasible.floor_le i (Finset.mem_of_mem_erase hi)).mp others
    exact (equal i (Finset.mem_erase.mpr ⟨other, hi⟩)).symm

end Concentrated

section Run

variable {floor mass eta : K} {s : Finset ι} {g : ι → K} {c : ι} {w : ℕ → ι → K} [DecidableEq ι]

/-- Finitely many dearer coordinates are dearer by a common margin. -/
private theorem exists_gap (cheapest : ∀ i ∈ s, i ≠ c → g c < g i) :
    ∃ gap, 0 < gap ∧ ∀ i ∈ s, i ≠ c → g c + gap ≤ g i := by
  rcases (s.erase c).eq_empty_or_nonempty with alone | others
  · refine ⟨1, one_pos, fun i hi other => ?_⟩
    have absent : i ∉ s.erase c := alone ▸ Finset.notMem_empty i
    exact absurd (Finset.mem_erase.mpr ⟨other, hi⟩) absent
  · obtain ⟨least, member, isLeast⟩ := Finset.exists_min_image (s.erase c) g others
    obtain ⟨other, inside⟩ := Finset.mem_erase.mp member
    refine ⟨g least - g c, sub_pos.mpr (cheapest least inside other), fun i hi elsewhere => ?_⟩
    linarith [isLeast i (Finset.mem_erase.mpr ⟨elsewhere, hi⟩)]

theorem cheapest_monotone (loose : s.card • floor < mass) (rate : 0 < eta) (member : c ∈ s)
    (cheapest : ∀ i ∈ s, i ≠ c → g c < g i)
    (steps : ∀ t, Descends floor mass eta s g (w t) (w (t + 1))) (t : ℕ) :
    w t c ≤ w (t + 1) c := by
  have noCheaper : ∀ i ∈ s, g c ≤ g i := by
    intro i hi
    by_cases here : i = c
    · rw [here]
    · exact (cheapest i hi here).le
  obtain ⟨gain, nonneg, own, -⟩ := (steps t).exists_gain loose rate member noCheaper
  linarith

/-- Against constant costs with one cheapest coordinate, all mass that can be moved
    is on that coordinate after finitely many steps, and stays there. -/
theorem exists_concentrated [Archimedean K] (loose : s.card • floor < mass) (rate : 0 < eta)
    (member : c ∈ s) (cheapest : ∀ i ∈ s, i ≠ c → g c < g i)
    (steps : ∀ t, Descends floor mass eta s g (w t) (w (t + 1))) :
    ∃ N, ∀ t ≥ N, Concentrated floor s c (w t) := by
  have monotone := cheapest_monotone loose rate member cheapest steps
  have stays : ∀ t, Concentrated floor s c (w t) → Concentrated floor s c (w (t + 1)) := by
    intro t concentrated
    apply (concentrated_iff (steps t).after member).mpr
    apply le_antisymm (le_rest (steps t).after member)
    exact ((concentrated_iff (steps t).before member).mp concentrated).symm.trans_le (monotone t)
  obtain ⟨N, reached⟩ : ∃ N, Concentrated floor s c (w N) := by
    by_contra never
    push Not at never
    obtain ⟨gap, positive, margin⟩ := exists_gap cheapest
    have climbs : ∀ t : ℕ, w 0 c + t • (eta * gap / 2) ≤ w t c := by
      intro t
      induction t with
      | zero => simp
      | succ t ih =>
          have gains := ((steps t).concentrated_or_gains loose rate member positive.le
            margin).resolve_left (never (t + 1))
          rw [succ_nsmul]
          linarith
    have amount : 0 < eta * gap / 2 := by positivity
    obtain ⟨t, enough⟩ := exists_lt_nsmul amount (mass - (s.card - 1 : ℕ) • floor - w 0 c)
    linarith [climbs t, le_rest (steps t).before member]
  refine ⟨N, fun t later => ?_⟩
  induction t, later using Nat.le_induction with
  | base => exact reached
  | succ t _ ih => exact stays t ih

end Run

end Erez.Lib.OnlineDescent
