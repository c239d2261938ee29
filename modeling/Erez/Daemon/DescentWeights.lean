import Erez.Daemon.Descent

/-! # The weight map through one tick

`reconcile` decides which nexthops have a weight, the gradient update keeps that
set, and `project` puts the weights back on the floored simplex whatever the
gradient did to them. `Settled` is the condition under which `reconcile` decides
right; it fails only for a list that repeats a nexthop.
-/

namespace Erez.Daemon.Descent

open Erez.Lib SimplexProjection

/-! ## Reconciling -/

private theorem mem_foldl_insert (value : ℚ) (nexthops : List Nexthop) (weights : Weights)
    (nh : Nexthop) :
    nh ∈ nexthops.foldl (fun weights nh => weights.insert nh value) weights ↔
      nh ∈ nexthops ∨ nh ∈ weights := by
  induction nexthops generalizing weights with
  | nil => simp
  | cons head rest ih =>
      rw [List.foldl_cons, ih, FiniteMap.mem_insert, List.mem_cons]
      tauto

private theorem get?_foldl_insert (value : ℚ) (nexthops : List Nexthop) (weights : Weights)
    (nh : Nexthop) :
    (nexthops.foldl (fun weights nh => weights.insert nh value) weights).get? nh =
      if nh ∈ nexthops then some value else weights.get? nh := by
  induction nexthops generalizing weights with
  | nil => simp
  | cons head rest ih =>
      rw [List.foldl_cons, ih, FiniteMap.get?_insert]
      by_cases later : nh ∈ rest
      · simp [later]
      · by_cases here : nh = head <;> simp [later, here]

theorem mem_uniform {nexthops : List Nexthop} {nh : Nexthop} :
    nh ∈ uniform nexthops ↔ nh ∈ nexthops := by
  simp [uniform, mem_foldl_insert]

theorem get?_uniform {nexthops : List Nexthop} {nh : Nexthop} (h : nh ∈ nexthops) :
    (uniform nexthops).get? nh = some (1 / (nexthops.length : ℚ)) := by
  simp [uniform, get?_foldl_insert, h]

theorem keys_toFinset {weights : Weights} {nexthops : List Nexthop}
    (same : ∀ nh, nh ∈ weights ↔ nh ∈ nexthops) : weights.keys.toFinset = nexthops.toFinset := by
  ext nh
  rw [List.mem_toFinset, List.mem_toFinset, ← AList.mem_keys, same]

theorem sum_uniform (nexthops : List Nexthop) :
    (uniform nexthops).values.sum = nexthops.toFinset.card / nexthops.length := by
  have listed : (uniform nexthops).keys.toFinset = nexthops.toFinset :=
    keys_toFinset fun _ => mem_uniform
  have each : ∀ nh ∈ nexthops.toFinset,
      ((uniform nexthops).get? nh).getD 0 = 1 / (nexthops.length : ℚ) := by
    intro nh member
    rw [get?_uniform (List.mem_toFinset.mp member)]
    rfl
  rw [FiniteMap.sum_values, listed, Finset.sum_congr rfl each, Finset.sum_const, nsmul_eq_mul,
    mul_one_div]

/-- The weights are as many as the distinct nexthops, whatever the order of the keys. -/
theorem card_keys {weights : Weights} {nexthops : List Nexthop}
    (same : ∀ nh, nh ∈ weights ↔ nh ∈ nexthops) :
    weights.keys.length = nexthops.toFinset.card := by
  rw [← List.toFinset_card_of_nodup weights.keys_nodup, keys_toFinset same]

/-- The branch of `reconcile` that goes wrong is not taken: it keeps the stored
    weights only where they belong to exactly the listed nexthops. -/
def Settled (weights : Weights) (nexthops : List Nexthop) : Prop :=
  nexthops.Nodup ∨ Changed weights nexthops

instance (weights : Weights) (nexthops : List Nexthop) : Decidable (Settled weights nexthops) :=
  inferInstanceAs (Decidable (_ ∨ _))

/-- As many weights as listed nexthops, all listed ones among them. -/
private theorem covers_of_unchanged {weights : Weights} {nexthops : List Nexthop}
    (h : ¬ Changed weights nexthops) :
    weights.keys.length = nexthops.length ∧ ∀ nh ∈ nexthops, nh ∈ weights := by
  simp only [Changed, not_or, not_not, not_exists, not_and] at h
  exact h

theorem mem_reconcile_of_settled {weights : Weights} {nexthops : List Nexthop}
    (settled : Settled weights nexthops) (nh : Nexthop) :
    nh ∈ reconcile weights nexthops ↔ nh ∈ nexthops := by
  unfold reconcile
  split
  · exact mem_uniform
  · rename_i kept
    obtain ⟨size, covered⟩ := covers_of_unchanged kept
    have distinct : nexthops.Nodup := settled.resolve_right kept
    have perm : nexthops.Perm weights.keys :=
      (List.subperm_of_subset distinct fun nh h => AList.mem_keys.mp (covered nh h)).perm_of_length_le
        size.le
    rw [perm.mem_iff, AList.mem_keys]

/-- Kept weights of an unsettled list belong to more nexthops than are listed. -/
theorem exists_stale {weights : Weights} {nexthops : List Nexthop}
    (unsettled : ¬ Settled weights nexthops) :
    ∃ nh, nh ∈ reconcile weights nexthops ∧ nh ∉ nexthops := by
  simp only [Settled, not_or] at unsettled
  obtain ⟨repeats, kept⟩ := unsettled
  obtain ⟨size, -⟩ := covers_of_unchanged kept
  by_contra none
  push Not at none
  rw [reconcile, if_neg kept] at none
  have listed : weights.keys ⊆ nexthops := fun nh h => none nh (AList.mem_keys.mpr h)
  have perm := (List.subperm_of_subset weights.keys_nodup listed).perm_of_length_le size.ge
  exact repeats (perm.nodup_iff.mp weights.keys_nodup)

theorem card_reconcile (weights : Weights) (nexthops : List Nexthop) :
    (reconcile weights nexthops).keys.length ≤ nexthops.length := by
  unfold reconcile
  split
  · rw [card_keys fun nh => mem_uniform]
    exact nexthops.toFinset_card_le
  · rename_i kept
    exact (covers_of_unchanged kept).1.le

/-- Every listed nexthop has a weight after `reconcile`, settled or not. -/
theorem mem_reconcile {weights : Weights} {nexthops : List Nexthop} {nh : Nexthop}
    (h : nh ∈ nexthops) : nh ∈ reconcile weights nexthops := by
  unfold reconcile
  split
  · exact mem_uniform.mpr h
  · rename_i kept
    exact (covers_of_unchanged kept).2 nh h

/-! ## The gradient update -/

/-- One iteration of the loop over the gradients. -/
def nudgeAt (weights : Weights) (step : Nexthop × Option ℚ) : Weights :=
  match weights.get? step.1 with
  | none => weights
  | some w => weights.insert step.1 (nudge step.2 w)

theorem descend_cons (weights : Weights) (step : Nexthop × Option ℚ)
    (rest : List (Nexthop × Option ℚ)) :
    descend weights (step :: rest) = descend (nudgeAt weights step) rest := rfl

theorem get?_nudgeAt (weights : Weights) (step : Nexthop × Option ℚ) (nh : Nexthop) :
    (nudgeAt weights step).get? nh =
      if nh = step.1 then (weights.get? nh).map (nudge step.2) else weights.get? nh := by
  unfold nudgeAt
  by_cases here : nh = step.1
  · subst here
    cases found : weights.get? step.1 with
    | none => simp [found]
    | some w => simp
  · cases weights.get? step.1 with
    | none => simp [here]
    | some w => simp [FiniteMap.get?_insert, here]

theorem mem_nudgeAt {weights : Weights} {step : Nexthop × Option ℚ} {nh : Nexthop} :
    nh ∈ nudgeAt weights step ↔ nh ∈ weights := by
  rw [← FiniteMap.isSome_get?, get?_nudgeAt, ← FiniteMap.isSome_get?]
  split <;> simp

theorem mem_descend {weights : Weights} {steps : List (Nexthop × Option ℚ)} {nh : Nexthop} :
    nh ∈ descend weights steps ↔ nh ∈ weights := by
  induction steps generalizing weights with
  | nil => rfl
  | cons step rest ih => rw [descend_cons, ih, mem_nudgeAt]

/-- A nexthop that occurs once is moved once. -/
theorem get?_descend {nexthops : List Nexthop} (distinct : nexthops.Nodup)
    (g : Nexthop → Option ℚ) (weights : Weights) (nh : Nexthop) :
    (descend weights (nexthops.map fun nh => (nh, g nh))).get? nh =
      if nh ∈ nexthops then (weights.get? nh).map (nudge (g nh)) else weights.get? nh := by
  induction nexthops generalizing weights with
  | nil => rfl
  | cons head rest ih =>
      obtain ⟨absent, restDistinct⟩ := List.nodup_cons.mp distinct
      rw [List.map_cons, descend_cons, ih restDistinct, get?_nudgeAt]
      by_cases here : nh = head
      · subst here
        simp [absent]
      · simp [here]

/-! ## Projecting -/

/-- The scan keeps a threshold of the values it has passed. -/
theorem scanTau_isThreshold {r : ℚ} (positive : 0 < r) (rest : List ℚ) :
    ∀ (passed : List ℚ) (tau : ℚ), (passed ++ rest).Pairwise (· ≥ ·) →
      (passed ≠ [] → IsThreshold r tau passed) → passed ++ rest ≠ [] →
      IsThreshold r (scanTau r rest passed.length passed.sum tau) (passed ++ rest) := by
  induction rest with
  | nil =>
      intro passed tau _ found nonempty
      simpa [scanTau] using found (by simpa using nonempty)
  | cons v rest ih =>
      intro passed tau sorted found _
      have below : ∀ y ∈ passed, v ≤ y := by
        intro y hy
        exact (List.pairwise_append.mp sorted).2.2 y hy v List.mem_cons_self
      have shape : passed ++ v :: rest = (passed ++ [v]) ++ rest := by simp
      have extended : ∀ next, IsThreshold r next (passed ++ [v]) →
          IsThreshold r (scanTau r rest (passed.length + 1) (passed.sum + v) next)
            (passed ++ v :: rest) := by
        intro next threshold
        have := ih (passed ++ [v]) next (shape ▸ sorted) (fun _ => threshold) (by simp)
        simpa using this
      rw [scanTau]
      apply extended
      have isCandidate : (passed.sum + v - r) / ((passed.length : ℚ) + 1) = candidate r passed v :=
        rfl
      rw [isCandidate]
      by_cases survives : v - candidate r passed v > 0
      · rw [if_pos survives]
        exact IsThreshold.extend_above below (by linarith)
      · rw [if_neg survives]
        cases passed with
        | nil => exact absurd (candidate_nil_lt positive v) (by linarith)
        | cons p ps =>
            exact (found (by simp)).extend_below (by simp) below (by linarith)

theorem tau_isThreshold {weights : Weights} (nonempty : weights.keys ≠ [])
    (few : weights.keys.length < 100) :
    IsThreshold (1 - weights.keys.length * minimumWeight) (tau weights)
      (weights.values.map (· - minimumWeight)) := by
  have positive : (0 : ℚ) < 1 - weights.keys.length * minimumWeight := by
    have bound : (weights.keys.length : ℚ) < 100 := by exact_mod_cast few
    simp only [minimumWeight]
    linarith
  have perm : (excess weights).Perm (weights.values.map (· - minimumWeight)) :=
    List.perm_insertionSort _ _
  have sorted : (excess weights).Pairwise (· ≥ ·) := List.pairwise_insertionSort _ _
  have some : excess weights ≠ [] := by
    intro empty
    have lengths := perm.length_eq
    rw [empty, List.length_map, FiniteMap.values_eq_lookups weights 0, List.length_map] at lengths
    exact nonempty (List.length_eq_zero_iff.mp lengths.symm)
  have found := scanTau_isThreshold positive (excess weights) [] 0 sorted (by simp) some
  exact IsThreshold.perm found perm

@[simp]
theorem keys_project (weights : Weights) : (project weights).keys = weights.keys :=
  FiniteMap.keys_mapValues _ weights

theorem get?_project (weights : Weights) (nh : Nexthop) :
    (project weights).get? nh = (weights.get? nh).map (clamp minimumWeight (tau weights)) :=
  FiniteMap.get?_mapValues _ weights nh

theorem mem_project {weights : Weights} {nh : Nexthop} : nh ∈ project weights ↔ nh ∈ weights :=
  FiniteMap.mem_mapValues

/-- No projected weight is below the floor. -/
theorem minimumWeight_le_project {weights : Weights} {w : ℚ}
    (h : w ∈ FiniteMap.values (project weights)) : minimumWeight ≤ w := by
  rw [project, FiniteMap.values_mapValues] at h
  obtain ⟨before, -, rfl⟩ := List.mem_map.mp h
  exact floor_le_clamp minimumWeight (tau weights) before

/-- The projected weights sum to exactly one. -/
theorem sum_project {weights : Weights} (nonempty : weights.keys ≠ [])
    (few : weights.keys.length < 100) : (FiniteMap.values (project weights)).sum = 1 := by
  have threshold := tau_isThreshold nonempty few
  have size : (FiniteMap.values weights).length = weights.keys.length := by
    rw [FiniteMap.values_eq_lookups weights 0, List.length_map]
  rw [IsThreshold, List.map_map] at threshold
  rw [project, FiniteMap.values_mapValues, List.sum_map_add]
  have floors : ((FiniteMap.values weights).map fun _ => minimumWeight).sum =
      weights.keys.length * minimumWeight := by
    rw [List.map_const', List.sum_replicate, size, nsmul_eq_mul]
  rw [floors]
  have survivors := threshold
  simp only [Function.comp_def] at survivors
  rw [survivors]
  ring

end Erez.Daemon.Descent
