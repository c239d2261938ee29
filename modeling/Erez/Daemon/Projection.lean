import Erez.Daemon.Convergence

/-! # `project` is a projection

The weights that `project` leaves are the point of the floored simplex that is
closest to the ones it was given, and no other point is as close. So neither the
order in which the hash map yields the weights nor a second application can make a
difference.
-/

namespace Erez.Daemon.Descent

open Erez.Lib SimplexProjection

/-! ## The scan over a hash map -/

/-- The weights above the floor, largest first, read in any order. -/
def excessIn (order : IterOrder) (weights : Weights) : List ℚ :=
  ((order.iterate weights.values).map (· - minimumWeight)).insertionSort (· ≥ ·)

def tauIn (order : IterOrder) (weights : Weights) : ℚ :=
  scanTau (1 - weights.keys.length * minimumWeight) (excessIn order weights) 0 0 0

def projectIn (order : IterOrder) (weights : Weights) : Weights :=
  weights.mapValues fun w => max (w - minimumWeight - tauIn order weights) 0 + minimumWeight

/-- Sorting forgets the order. -/
theorem excessIn_eq (order : IterOrder) (weights : Weights) :
    excessIn order weights = excess weights := by
  have same : (excessIn order weights).Perm (excess weights) := by
    refine (List.perm_insertionSort _ _).trans ?_
    exact ((order.iterate_perm _).map _).trans (List.perm_insertionSort _ _).symm
  have first : (excessIn order weights).Pairwise (· ≥ ·) := List.pairwise_insertionSort _ _
  have second : (excess weights).Pairwise (· ≥ ·) := List.pairwise_insertionSort _ _
  exact same.eq_of_pairwise' first second

theorem projectIn_eq (order : IterOrder) (weights : Weights) :
    projectIn order weights = project weights := by
  rw [projectIn, tauIn, excessIn_eq]
  rfl

/-! ## The closest point -/

theorem isClosest_project {weights : Weights} (nonempty : weights.keys ≠ [])
    (few : weights.keys.length < 100) :
    IsClosest minimumWeight 1 weights.keys.toFinset (weight weights) (weight (project weights)) := by
  have clamped : ∀ nh ∈ weights.keys.toFinset,
      weight (project weights) nh = clamp minimumWeight (tau weights) (weight weights nh) := by
    intro nh member
    have present : nh ∈ weights := AList.mem_keys.mpr (List.mem_toFinset.mp member)
    rw [weight, get?_project, get?_eq_weight present]
    rfl
  have total : ∑ nh ∈ weights.keys.toFinset, weight (project weights) nh = 1 := by
    rw [← sum_project nonempty few, FiniteMap.sum_values, keys_project]
    rfl
  exact isClosest_of_clamp clamped total

/-- A map is known by its keys and the weights at them. -/
theorem get?_eq_of_weight_eq {weights other : Weights} (members : ∀ nh, nh ∈ other ↔ nh ∈ weights)
    (same : ∀ nh ∈ weights, weight other nh = weight weights nh) (nh : Nexthop) :
    other.get? nh = weights.get? nh := by
  by_cases present : nh ∈ weights
  · rw [get?_eq_weight present, get?_eq_weight ((members nh).mpr present), same nh present]
  · have absent : nh ∉ other := mt (members nh).mp present
    rw [FiniteMap.get?_eq_none.mpr present, FiniteMap.get?_eq_none.mpr absent]

section Unique

variable {weights : Weights} (nonempty : weights.keys ≠ []) (few : weights.keys.length < 100)

include nonempty few

/-- Maps with the same lookups have the same projection, however their entries lie. -/
theorem get?_project_congr {other : Weights} (same : ∀ nh, other.get? nh = weights.get? nh)
    (nh : Nexthop) : (project other).get? nh = (project weights).get? nh := by
  have members (nh : Nexthop) : nh ∈ other ↔ nh ∈ weights := by
    rw [← FiniteMap.isSome_get?, same, FiniteMap.isSome_get?]
  have perm : other.keys.Perm weights.keys := FiniteMap.keys_perm members
  have sameWeight : weight other = weight weights := by
    funext nh
    rw [weight, weight, same]
  have otherNonempty : other.keys ≠ [] := by
    rw [← List.length_pos_iff, perm.length_eq]
    exact List.length_pos_iff.mpr nonempty
  have first := isClosest_project otherNonempty (perm.length_eq.trans_lt few)
  rw [List.toFinset_eq_of_perm _ _ perm, sameWeight] at first
  refine get?_eq_of_weight_eq (fun nh => ?_) (fun nh present => ?_) nh
  · rw [mem_project, mem_project, members]
  · have listed : nh ∈ weights.keys.toFinset :=
      List.mem_toFinset.mpr (AList.mem_keys.mp (mem_project.mp present))
    exact first.unique (isClosest_project nonempty few) listed

/-- Projected weights are their own projection. -/
theorem get?_project_project (nh : Nexthop) :
    (project (project weights)).get? nh = (project weights).get? nh := by
  have again : IsClosest minimumWeight 1 (project weights).keys.toFinset (weight (project weights))
      (weight (project (project weights))) := by
    apply isClosest_project
    · rw [keys_project]
      exact nonempty
    · rw [keys_project]
      exact few
  have itself := IsClosest.of_feasible (isClosest_project nonempty few).feasible
  rw [keys_project] at again
  refine get?_eq_of_weight_eq (fun nh => mem_project) (fun nh present => ?_) nh
  have listed : nh ∈ weights.keys.toFinset :=
    List.mem_toFinset.mpr (AList.mem_keys.mp (mem_project.mp present))
  exact again.unique itself listed

end Unique

/-- `project` is the Euclidean projection onto the floored simplex. -/
theorem project_is_projection (weights : Weights) (some_ : 1 ≤ weights.keys.length)
    (few : weights.keys.length ≤ 99) :
    (∀ nh, nh ∈ project weights ↔ nh ∈ weights) ∧
      (∀ w ∈ (project weights).values, 1 / 100 ≤ w) ∧ (project weights).values.sum = 1 ∧
      (∀ u : Nexthop → ℚ, (∀ nh ∈ weights, 1 / 100 ≤ u nh) →
        ∑ nh ∈ weights.keys.toFinset, u nh = 1 →
        (∃ nh ∈ weights, u nh ≠ weight (project weights) nh) →
        sqDist weights.keys.toFinset (weight weights) (weight (project weights)) <
          sqDist weights.keys.toFinset (weight weights) u) ∧
      (∀ (order : IterOrder) (other : Weights), (∀ nh, other.get? nh = weights.get? nh) →
        ∀ nh, (projectIn order other).get? nh = (project weights).get? nh) ∧
      ∀ nh, (project (project weights)).get? nh = (project weights).get? nh := by
  have nonempty : weights.keys ≠ [] := List.length_pos_iff.mp some_
  have below : weights.keys.length < 100 := Nat.lt_succ_of_le few
  refine ⟨fun _ => mem_project, fun _ => minimumWeight_le_project, sum_project nonempty below, ?_, ?_,
    get?_project_project nonempty below⟩
  · intro u floored total differ
    obtain ⟨nh, present, differs⟩ := differ
    refine (isClosest_project nonempty below).closest u ⟨fun i member => ?_, total⟩
      ⟨nh, List.mem_toFinset.mpr (AList.mem_keys.mp present), differs⟩
    exact floored i (AList.mem_keys.mpr (List.mem_toFinset.mp member))
  · intro order other same nh
    rw [projectIn_eq]
    exact get?_project_congr nonempty below same nh

section Overdrawn

private def richHop : Nexthop := .v4 (.new 192 0 2 71)

private def poorHop : Nexthop := .v4 (.new 192 0 2 72)

/-- One weight above one, the other negative. -/
private def overdrawn : Weights :=
  ((∅ : Weights).insert richHop (7 / 4)).insert poorHop (-1 / 4)

theorem project_is_projection_overdrawn :
    (project overdrawn).values.sum = 1 ∧
      sqDist overdrawn.keys.toFinset (weight overdrawn) (weight (project overdrawn)) <
        sqDist overdrawn.keys.toFinset (weight overdrawn) fun _ => 1 / 2 := by
  obtain ⟨-, -, total, closest, -⟩ :=
    project_is_projection overdrawn (by decide) (by decide)
  refine ⟨total, closest (fun _ => 1 / 2) (fun _ _ => by norm_num) (by decide +kernel) ?_⟩
  exact ⟨richHop, by decide, by decide +kernel⟩

end Overdrawn

end Erez.Daemon.Descent
