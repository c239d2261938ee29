import Mathlib

/-! # Euclidean projection onto a floored simplex

The target set is `{u | floor ≤ u i for all i, ∑ u = mass}`. A point is projected
onto it by subtracting one threshold from every coordinate and clamping at the
floor; the threshold is right exactly when the surviving mass is what remains
above the floors. The first part grows a threshold along a descending list, one
value at a time. The second part derives optimality from the threshold equation
alone, so it does not care how the threshold was found.
-/

namespace Erez.Lib.SimplexProjection

variable {K : Type*} [Field K] [LinearOrder K] [IsStrictOrderedRing K]

/-- What survives the clamp at `tau` sums to `r`. -/
def IsThreshold (r tau : K) (v : List K) : Prop :=
  (v.map fun x => max (x - tau) 0).sum = r

omit [IsStrictOrderedRing K] in
theorem IsThreshold.perm {r tau : K} {v w : List K} (h : IsThreshold r tau v) (hp : v.Perm w) :
    IsThreshold r tau w :=
  (hp.map _).sum_eq.symm.trans h

/-- When every value is above the threshold, nothing is clamped. -/
theorem sum_above {tau : K} {v : List K} (h : ∀ x ∈ v, tau ≤ x) :
    (v.map fun x => max (x - tau) 0).sum = v.sum - v.length * tau := by
  induction v with
  | nil => simp
  | cons x v ih =>
      have hx : tau ≤ x := h x List.mem_cons_self
      have hv := ih fun y hy => h y (List.mem_cons_of_mem x hy)
      simp only [List.map_cons, List.sum_cons, List.length_cons, hv, max_eq_left (sub_nonneg.mpr hx)]
      push_cast
      ring

/-- The value that would spread the excess of `v` and `x` evenly over all of them. -/
def candidate (r : K) (v : List K) (x : K) : K :=
  (v.sum + x - r) / ((v.length : K) + 1)

private theorem count_pos (v : List K) : (0 : K) < (v.length : K) + 1 := by positivity

/-- A next value above its candidate survives, and so does everything before it. -/
theorem IsThreshold.extend_above {r x : K} {v : List K} (below : ∀ y ∈ v, x ≤ y)
    (survives : candidate r v x < x) : IsThreshold r (candidate r v x) (v ++ [x]) := by
  have above : ∀ y ∈ v ++ [x], candidate r v x ≤ y := by
    intro y hy
    rcases List.mem_append.mp hy with hv | hx
    · exact survives.le.trans (below y hv)
    · rw [List.mem_singleton.mp hx]
      exact survives.le
  have scaled : ((v.length : K) + 1) * candidate r v x = v.sum + x - r :=
    mul_div_cancel₀ _ (count_pos v).ne'
  simp only [IsThreshold, sum_above above, List.sum_append, List.length_append,
    List.sum_singleton, List.length_singleton]
  push_cast
  linarith

/-- A next value at or below its candidate is clamped by the threshold found so far. -/
theorem IsThreshold.extend_below {r tau x : K} {v : List K} (h : IsThreshold r tau v)
    (started : v ≠ []) (below : ∀ y ∈ v, x ≤ y) (clamped : x ≤ candidate r v x) :
    IsThreshold r tau (v ++ [x]) := by
  have hx : x ≤ tau := by
    by_contra hlt
    have hlt : tau < x := not_le.mp hlt
    have mass := sum_above fun y hy => hlt.le.trans (below y hy)
    have hpos : (0 : K) < v.length := by exact_mod_cast List.length_pos_iff.mpr started
    have scaled : x * ((v.length : K) + 1) ≤ v.sum + x - r :=
      (le_div_iff₀ (count_pos v)).mp clamped
    have grows : (v.length : K) * tau < v.length * x := mul_lt_mul_of_pos_left hlt hpos
    have total : v.sum - v.length * tau = r := mass.symm.trans h
    linarith
  have zero : max (x - tau) 0 = 0 := max_eq_right (sub_nonpos.mpr hx)
  simpa only [IsThreshold, List.map_append, List.sum_append, List.map_cons, List.map_nil, zero,
    List.sum_singleton, add_zero] using h

/-- The first value always survives, since the mass to place is positive. -/
theorem candidate_nil_lt {r : K} (hr : 0 < r) (x : K) : candidate r [] x < x := by
  simp only [candidate, List.sum_nil, List.length_nil, Nat.cast_zero, zero_add, div_one]
  linarith

/-- Subtract the threshold, clamp at zero, shift back by the floor. -/
def clamp (floor tau x : K) : K :=
  max (x - floor - tau) 0 + floor

theorem floor_le_clamp (floor tau x : K) : floor ≤ clamp floor tau x :=
  le_add_of_nonneg_left (le_max_right _ _)

variable {ι : Type*}

/-- The threshold is not negative exactly when the values are enough to begin with. -/
theorem threshold_nonneg_iff {r tau : K} {s : Finset ι} {y : ι → K}
    (threshold : ∑ i ∈ s, max (y i - tau) 0 = r) (positive : 0 < r) :
    0 ≤ tau ↔ r ≤ ∑ i ∈ s, max (y i) 0 := by
  constructor
  · intro nonneg
    rw [← threshold]
    exact Finset.sum_le_sum fun i _ => max_le_max_right 0 (by linarith)
  · intro enough
    by_contra negative
    have negative : tau < 0 := not_le.mp negative
    obtain ⟨i, hi, above⟩ : ∃ i ∈ s, (0 : K) < max (y i - tau) 0 := by
      apply Finset.exists_lt_of_sum_lt
      rw [Finset.sum_const_zero, threshold]
      exact positive
    have shrinks : ∀ j ∈ s, max (y j) 0 ≤ max (y j - tau) 0 := fun j _ =>
      max_le_max_right 0 (by linarith)
    have strictly : max (y i) 0 < max (y i - tau) 0 := by
      have survives : 0 < y i - tau := by simpa using above
      rw [max_eq_left survives.le]
      exact max_lt (by linarith) survives
    have total := Finset.sum_lt_sum shrinks ⟨i, hi, strictly⟩
    rw [threshold] at total
    exact absurd enough (not_le.mpr total)

/-- The points the projection may answer with. -/
structure Feasible (floor mass : K) (s : Finset ι) (u : ι → K) : Prop where
  floor_le : ∀ i ∈ s, floor ≤ u i
  total : ∑ i ∈ s, u i = mass

def sqDist (s : Finset ι) (x y : ι → K) : K :=
  ∑ i ∈ s, (x i - y i) ^ 2

theorem sqDist_nonneg (s : Finset ι) (x y : ι → K) : 0 ≤ sqDist s x y :=
  Finset.sum_nonneg fun i _ => sq_nonneg (x i - y i)

private theorem clamp_slope {floor tau x u : K} (hu : floor ≤ u) :
    (x - clamp floor tau x) * (u - clamp floor tau x) ≤ tau * (u - clamp floor tau x) := by
  rcases le_total 0 (x - floor - tau) with h | h
  · have moved : x - clamp floor tau x = tau := by
      simp only [clamp, max_eq_left h]
      ring
    rw [moved]
  · have floored : clamp floor tau x = floor := by simp only [clamp, max_eq_right h, zero_add]
    rw [floored]
    exact mul_le_mul_of_nonneg_right (by linarith) (sub_nonneg.mpr hu)

/-- The variational inequality of the projection: no feasible point lies on the
    far side of the clamped one. -/
theorem clamp_variational {floor tau mass : K} {s : Finset ι} {w u : ι → K}
    (onto : ∑ i ∈ s, clamp floor tau (w i) = mass) (hu : Feasible floor mass s u) :
    ∑ i ∈ s, (w i - clamp floor tau (w i)) * (u i - clamp floor tau (w i)) ≤ 0 := by
  calc
    ∑ i ∈ s, (w i - clamp floor tau (w i)) * (u i - clamp floor tau (w i))
        ≤ ∑ i ∈ s, tau * (u i - clamp floor tau (w i)) :=
      Finset.sum_le_sum fun i hi => clamp_slope (hu.floor_le i hi)
    _ = 0 := by rw [← Finset.mul_sum, Finset.sum_sub_distrib, hu.total, onto, sub_self, mul_zero]

/-- Pythagoras for the projection: moving to the clamped point first never costs more. -/
theorem sqDist_clamp_add_le {floor tau mass : K} {s : Finset ι} {w u : ι → K}
    (onto : ∑ i ∈ s, clamp floor tau (w i) = mass) (hu : Feasible floor mass s u) :
    sqDist s w (fun i => clamp floor tau (w i)) + sqDist s (fun i => clamp floor tau (w i)) u ≤
      sqDist s w u := by
  have slope := clamp_variational onto hu
  have split : sqDist s w u = sqDist s w (fun i => clamp floor tau (w i)) +
      sqDist s (fun i => clamp floor tau (w i)) u -
      2 * ∑ i ∈ s, (w i - clamp floor tau (w i)) * (u i - clamp floor tau (w i)) := by
    simp only [sqDist, Finset.mul_sum, ← Finset.sum_add_distrib, ← Finset.sum_sub_distrib]
    refine Finset.sum_congr rfl fun i _ => ?_
    ring
  linarith

/-- The clamped point is at least as close to every feasible point as the original. -/
theorem sqDist_clamp_le {floor tau mass : K} {s : Finset ι} {w u : ι → K}
    (onto : ∑ i ∈ s, clamp floor tau (w i) = mass) (hu : Feasible floor mass s u) :
    sqDist s (fun i => clamp floor tau (w i)) u ≤ sqDist s w u := by
  have pythagoras := sqDist_clamp_add_le onto hu
  have moved := sqDist_nonneg s w (fun i => clamp floor tau (w i))
  linarith

/-! ## The closest point -/

omit [LinearOrder K] [IsStrictOrderedRing K] in
theorem sqDist_self (s : Finset ι) (x : ι → K) : sqDist s x x = 0 := by
  simp [sqDist]

theorem sqDist_pos {s : Finset ι} {x y : ι → K} (differ : ∃ i ∈ s, x i ≠ y i) :
    0 < sqDist s x y := by
  obtain ⟨i, member, differs⟩ := differ
  exact Finset.sum_pos' (fun j _ => sq_nonneg (x j - y j))
    ⟨i, member, sq_pos_of_ne_zero (sub_ne_zero.mpr differs)⟩

/-- A feasible point that is closer to `w` than every other one. -/
structure IsClosest (floor mass : K) (s : Finset ι) (w x : ι → K) : Prop where
  feasible : Feasible floor mass s x
  closest : ∀ u, Feasible floor mass s u → (∃ i ∈ s, u i ≠ x i) → sqDist s w x < sqDist s w u

section Closest

variable {floor tau mass : K} {s : Finset ι} {w x y : ι → K}

/-- Clamping at a threshold that leaves the right total gives the closest point. -/
theorem isClosest_of_clamp (clamped : ∀ i ∈ s, x i = clamp floor tau (w i))
    (total : ∑ i ∈ s, x i = mass) : IsClosest floor mass s w x where
  feasible := by
    refine ⟨fun i member => ?_, total⟩
    rw [clamped i member]
    exact floor_le_clamp floor tau (w i)
  closest := by
    intro u feasible differ
    have onto : ∑ i ∈ s, clamp floor tau (w i) = mass :=
      (Finset.sum_congr rfl clamped).symm.trans total
    have pythagoras := sqDist_clamp_add_le onto feasible
    have apart : 0 < sqDist s (fun i => clamp floor tau (w i)) u := by
      obtain ⟨i, member, differs⟩ := differ
      exact sqDist_pos ⟨i, member, fun same => differs (same.symm.trans (clamped i member).symm)⟩
    have here : sqDist s w x = sqDist s w (fun i => clamp floor tau (w i)) :=
      Finset.sum_congr rfl fun i member => by rw [clamped i member]
    linarith

omit [IsStrictOrderedRing K] in
theorem IsClosest.unique (first : IsClosest floor mass s w x) (second : IsClosest floor mass s w y)
    {i : ι} (member : i ∈ s) : x i = y i := by
  by_contra differs
  have closer := first.closest y second.feasible ⟨i, member, Ne.symm differs⟩
  have farther := second.closest x first.feasible ⟨i, member, differs⟩
  exact lt_asymm closer farther

/-- A feasible point is its own projection. -/
theorem IsClosest.of_feasible (h : Feasible floor mass s w) : IsClosest floor mass s w w where
  feasible := h
  closest := by
    intro u _ differ
    obtain ⟨i, member, differs⟩ := differ
    rw [sqDist_self]
    exact sqDist_pos ⟨i, member, Ne.symm differs⟩

end Closest

end Erez.Lib.SimplexProjection
