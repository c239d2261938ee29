import Erez.Daemon.DescentRuns

/-! # Steering converges to the cheapest nexthop

While the measured costs stay the same and one nexthop is cheaper than all others,
the ticks move weight onto it and never away. After finitely many of them the
others are down to the minimum weight, whatever the weights were at the start.
-/

namespace Erez.Daemon.Descent

open Erez.Lib SimplexProjection OnlineDescent

/-- The weight of a nexthop, zero if it has none. -/
def weight (weights : Weights) (nh : Nexthop) : ℚ :=
  (weights.get? nh).getD 0

/-- Weights of exactly the listed nexthops, at the floor or above, with a total of one. -/
structure OnSimplex (nexthops : List Nexthop) (weights : Weights) : Prop where
  keys : ∀ nh, nh ∈ weights ↔ nh ∈ nexthops
  floor : ∀ w ∈ weights.values, minimumWeight ≤ w
  sum : weights.values.sum = 1

section

variable {nlri : Nlri} {nexthops : List Nexthop} {weights : Weights}

theorem weight_eq {nh : Nexthop} {w : ℚ} (found : weights.get? nh = some w) :
    weight weights nh = w := by
  rw [weight, found]
  rfl

theorem get?_eq_weight {nh : Nexthop} (h : nh ∈ weights) : weights.get? nh = some (weight weights nh) := by
  obtain ⟨w, found⟩ := FiniteMap.get?_of_mem h
  rw [weight_eq found, found]

theorem OnSimplex.feasible (simplex : OnSimplex nexthops weights) :
    Feasible minimumWeight 1 nexthops.toFinset (weight weights) where
  floor_le := by
    intro nh member
    have present : nh ∈ weights := (simplex.keys nh).mpr (List.mem_toFinset.mp member)
    apply simplex.floor
    rw [FiniteMap.values_eq_lookups weights 0]
    exact List.mem_map_of_mem (AList.mem_keys.mp present)
  total := by
    rw [← keys_toFinset simplex.keys, ← simplex.sum]
    exact (FiniteMap.sum_values weights).symm

/-- Four floors leave room on the simplex. -/
theorem floors_lt_one (distinct : nexthops.Nodup) (few : nexthops.length ≤ maxNexthops) :
    nexthops.toFinset.card • minimumWeight < 1 := by
  have bound : (nexthops.length : ℚ) ≤ 4 := by exact_mod_cast few
  rw [List.toFinset_card_of_nodup distinct, nsmul_eq_mul, minimumWeight]
  linarith

/-- Whatever a tick finds stored, it stores weights on the simplex. -/
theorem onSimplex_advance (snapshot : TcpRttSnapshot) (distinct : nexthops.Nodup)
    (nonempty : nexthops ≠ []) (few : nexthops.length ≤ maxNexthops) :
    OnSimplex nexthops (advance weights nlri nexthops snapshot) where
  keys := fun nh => mem_advance.trans (mem_reconcile_of_settled (.inl distinct) nh)
  floor := fun _ => minimumWeight_le_advance
  sum := sum_advance nonempty few

/-- A tick that finds a window for every nexthop is one projected step. -/
theorem OnSimplex.descends (simplex : OnSimplex nexthops weights) {snapshot : TcpRttSnapshot}
    (distinct : nexthops.Nodup) (nonempty : nexthops ≠ []) (few : nexthops.length ≤ maxNexthops)
    {g : Nexthop → ℚ}
    (seen : ∀ nh ∈ nexthops, (window? snapshot nlri nh).map gradient = some (g nh)) :
    Descends minimumWeight 1 learningRate nexthops.toFinset g (weight weights)
      (weight (advance weights nlri nexthops snapshot)) where
  clamped := by
    have windows : ∀ nh ∈ nexthops, ∃ win, window? snapshot nlri nh = some win := by
      intro nh member
      obtain ⟨win, found, -⟩ := Option.map_eq_some_iff.mp (seen nh member)
      exact ⟨win, found⟩
    obtain ⟨threshold, clamped, -⟩ : ∃ threshold,
        (∀ nh ∈ nexthops, (advance weights nlri nexthops snapshot).get? nh =
          some (clamp minimumWeight threshold (((reconcile weights nexthops).get? nh).getD 0 -
            learningRate * cost snapshot nlri nh))) ∧ _ :=
      exists_clamped distinct nonempty few windows
    refine ⟨threshold, fun nh listed => ?_⟩
    have member := List.mem_toFinset.mp listed
    rw [weight, clamped nh member, reconcile_of_same distinct simplex.keys, cost, seen nh member]
    rfl
  before := simplex.feasible
  after := (onSimplex_advance snapshot distinct nonempty few).feasible

/-- The weights when all others are at the floor. -/
theorem OnSimplex.get?_of_concentrated (simplex : OnSimplex nexthops weights)
    (distinct : nexthops.Nodup) {c : Nexthop} (member : c ∈ nexthops)
    (concentrated : Concentrated minimumWeight nexthops.toFinset c (weight weights)) :
    weights.get? c = some (1 - ((nexthops.length : ℚ) - 1) / 100) ∧
      ∀ nh ∈ nexthops, nh ≠ c → weights.get? nh = some (1 / 100) := by
  have size : nexthops.toFinset.card = nexthops.length := List.toFinset_card_of_nodup distinct
  constructor
  · have all := (concentrated_iff simplex.feasible (List.mem_toFinset.mpr member)).mp concentrated
    have positive : 1 ≤ nexthops.length := List.length_pos_of_mem member
    rw [get?_eq_weight ((simplex.keys c).mpr member), all, size, nsmul_eq_mul, minimumWeight]
    push_cast [positive]
    ring_nf
  · intro nh listed other
    have floored := concentrated nh (List.mem_toFinset.mpr listed) other
    rw [get?_eq_weight ((simplex.keys nh).mpr listed), floored, minimumWeight]

end

/-- Ticks over a fixed list of distinct nexthops whose costs stay the same, one of
    them cheaper than the others. From any stored weights on the simplex, they all
    succeed, the cheapest nexthop never loses weight, and from some tick on it has
    all that the others need not have. -/
theorem converges_to_cheapest (start : Descent) (nlri : Nlri) (nexthops : List Nexthop)
    (order : ℕ → IterOrder) (snapshots : ℕ → TcpRttSnapshot) (weights : Weights)
    (g : Nexthop → ℚ) (c : Nexthop) (stored : start.weights.get? nlri = some weights)
    (distinct : nexthops.Nodup) (few : nexthops.length ≤ maxNexthops)
    (simplex : OnSimplex nexthops weights)
    (seen : ∀ t, ∀ nh ∈ nexthops, (window? (snapshots t) nlri nh).map gradient = some (g nh))
    (member : c ∈ nexthops) (cheapest : ∀ nh ∈ nexthops, nh ≠ c → g c < g nh) :
    ∃ descents, descents 0 = start ∧ (∀ T, Ticks nlri nexthops order snapshots T descents) ∧
      (∃ N, ∀ t ≥ N,
        ((descents t).stored nlri).get? c = some (1 - ((nexthops.length : ℚ) - 1) / 100) ∧
        ∀ nh ∈ nexthops, nh ≠ c → ((descents t).stored nlri).get? nh = some (1 / 100)) ∧
      ∀ t, weight ((descents t).stored nlri) c ≤ weight ((descents (t + 1)).stored nlri) c := by
  have nonempty : nexthops ≠ [] := List.ne_nil_of_mem member
  obtain ⟨descents, started, ticks⟩ :
      ∃ descents, descents 0 = start ∧ ∀ T, Ticks nlri nexthops order snapshots T descents :=
    exists_ticks start order snapshots nonempty few
  have next : ∀ t, (descents (t + 1)).stored nlri =
      advance ((descents t).stored nlri) nlri nexthops (snapshots t) := by
    intro t
    rw [(ticks (t + 1)).succ_eq nonempty few t.lt_succ_self, stored_insert, if_pos rfl]
  have onSimplex : ∀ t, OnSimplex nexthops ((descents t).stored nlri) := by
    intro t
    cases t with
    | zero =>
        rw [started, Descent.stored, stored]
        exact simplex
    | succ t =>
        rw [next t]
        exact onSimplex_advance (snapshots t) distinct nonempty few
  have steps : ∀ t, Descends minimumWeight 1 learningRate nexthops.toFinset g
      (weight ((descents t).stored nlri)) (weight ((descents (t + 1)).stored nlri)) := by
    intro t
    rw [next t]
    exact (onSimplex t).descends distinct nonempty few (seen t)
  have loose : nexthops.toFinset.card • minimumWeight < 1 := floors_lt_one distinct few
  have inside : c ∈ nexthops.toFinset := List.mem_toFinset.mpr member
  have dearer : ∀ nh ∈ nexthops.toFinset, nh ≠ c → g c < g nh := fun nh listed =>
    cheapest nh (List.mem_toFinset.mp listed)
  refine ⟨descents, started, ticks, ?_, cheapest_monotone loose learningRate_pos inside dearer steps⟩
  obtain ⟨N, concentrated⟩ := exists_concentrated loose learningRate_pos inside dearer steps
  refine ⟨N, fun t later => ?_⟩
  exact (onSimplex t).get?_of_concentrated distinct member (concentrated t later)

section Even

private def steeredNlri : Nlri := .v4 (.clamped (.new 10 3 0 0) 24)

private def nearHop : Nexthop := .v4 (.new 192 0 2 11)

private def farHop : Nexthop := .v4 (.new 192 0 2 12)

private def evenWeights : Weights :=
  ((∅ : Weights).insert nearHop (1 / 2)).insert farHop (1 / 2)

/-- Windows at 20 ms and at 80 ms. -/
private def steadyRtt : TcpRttSnapshot :=
  ⟨(∅ : FiniteMap Nlri _).insert steeredNlri
    (((∅ : FiniteMap Nexthop _).insert nearHop ⟨12, 20000, 25000, 18000⟩).insert farHop
      ⟨9, 80000, 90000, 18000⟩)⟩

private def steadyCost (nh : Nexthop) : ℚ :=
  if nh = nearHop then 22000 else 142000

theorem converges_to_near :
    ∃ descents, descents 0 = ⟨(∅ : FiniteMap Nlri _).insert steeredNlri evenWeights⟩ ∧
      (∀ T, Ticks steeredNlri [nearHop, farHop] (fun _ => .stored) (fun _ => steadyRtt) T
        descents) ∧
      ∃ N, ∀ t ≥ N, ((descents t).stored steeredNlri).get? nearHop = some (99 / 100) := by
  have simplex : OnSimplex [nearHop, farHop] evenWeights := by
    refine ⟨fun nh => ?_, by decide +kernel, by decide +kernel⟩
    simp [evenWeights, or_comm]
  obtain ⟨descents, started, ticks, ⟨N, reached⟩, -⟩ :=
    converges_to_cheapest ⟨(∅ : FiniteMap Nlri _).insert steeredNlri evenWeights⟩ steeredNlri
      [nearHop, farHop] (fun _ => .stored) (fun _ => steadyRtt) evenWeights steadyCost nearHop
      (FiniteMap.get?_insert_self _ _ _) (by decide) (by decide) simplex
      (fun _ => by decide +kernel) (by decide) (by decide +kernel)
  refine ⟨descents, started, ticks, N, fun t later => ?_⟩
  rw [(reached t later).1]
  norm_num

end Even

end Erez.Daemon.Descent
