import Erez.Daemon.Convergence

/-! # Where one step moves the weights

With an RTT window for every nexthop the threshold only shifts what the gradients
decided: the cheapest nexthop cannot lose, the dearest cannot gain, and the order
of two nexthops survives if the costs agree with it. A nexthop without a window is
put on the floor first, but the projection then spreads all that was taken over
the nexthops, those on the floor included.
-/

namespace Erez.Daemon.Descent

open Erez.Lib SimplexProjection OnlineDescent

section

variable {nlri : Nlri} {nexthops : List Nexthop} {weights : Weights} {snapshot : TcpRttSnapshot}

theorem OnSimplex.nonempty (simplex : OnSimplex nexthops weights) : nexthops ≠ [] := by
  intro empty
  have total := simplex.feasible.total
  rw [empty] at total
  norm_num at total

/-- A cost is never negative, and nothing only at no latency at all. -/
theorem gradient_nonneg (win : TcpRttWindow) : 0 ≤ gradient win :=
  add_nonneg (Nat.cast_nonneg _) (Nat.cast_nonneg _)

theorem gradient_eq_zero {win : TcpRttWindow} : gradient win = 0 ↔ win.avgSrttUs = 0 := by
  have zero : win.avgSrttUs = 0 ↔ win.avgSrttUs.toNat = 0 := by
    rw [← UInt64.toNat_inj]
    rfl
  rw [gradient, add_eq_zero_iff_of_nonneg (Nat.cast_nonneg _) (Nat.cast_nonneg _), Nat.cast_eq_zero,
    Nat.cast_eq_zero, zero]
  omega

/-! ## Every nexthop measured -/

/-- A step moves no weight from a cheaper nexthop to a dearer one. -/
theorem steers_towards_cheap (order : IterOrder) (descent : Descent) (nlri : Nlri)
    (nexthops : List Nexthop) (snapshot : TcpRttSnapshot) (weights : Weights)
    (windows : Nexthop → TcpRttWindow) (stored : descent.weights.get? nlri = some weights)
    (distinct : nexthops.Nodup) (few : nexthops.length ≤ maxNexthops)
    (simplex : OnSimplex nexthops weights)
    (seen : ∀ nh ∈ nexthops, window? snapshot nlri nh = some (windows nh)) :
    ∃ weighted after, step order descent nlri nexthops snapshot = .ok (some weighted, after) ∧
      (∀ nh ∈ nexthops, (∀ other ∈ nexthops, gradient (windows nh) ≤ gradient (windows other)) →
        weight weights nh ≤ weight (after.stored nlri) nh) ∧
      (∀ nh ∈ nexthops, (∀ other ∈ nexthops, gradient (windows other) ≤ gradient (windows nh)) →
        weight (after.stored nlri) nh ≤ weight weights nh) ∧
      ∀ nh ∈ nexthops, ∀ other ∈ nexthops, weight weights other ≤ weight weights nh →
        gradient (windows nh) ≤ gradient (windows other) →
        weight (after.stored nlri) other ≤ weight (after.stored nlri) nh := by
  have nonempty := simplex.nonempty
  have before : descent.stored nlri = weights := by
    rw [Descent.stored, stored]
    rfl
  refine ⟨_, _, step_eq order descent nlri snapshot nonempty few, ?_⟩
  rw [stored_insert, if_pos rfl, before]
  have descends := simplex.descends (g := fun nh => gradient (windows nh)) distinct nonempty few
    fun nh member => by rw [seen nh member]; rfl
  have listed : ∀ nh, nh ∈ nexthops ↔ nh ∈ nexthops.toFinset := fun nh => List.mem_toFinset.symm
  simp only [listed]
  refine ⟨?_, ?_, ?_⟩
  · intro nh member minimal
    exact descends.cheapest_gains (floors_lt_one distinct few) learningRate_pos member minimal
  · intro nh member maximal
    exact descends.dearest_loses learningRate_pos member maximal
  · intro nh member other otherMember heavier cheaper
    exact descends.keeps_order learningRate_pos member otherMember heavier cheaper

/-! ## Some nexthops without a window -/

theorem nudge_eq (g : Option ℚ) (w : ℚ) : nudge g w = nudged minimumWeight learningRate g w := by
  cases g <;> rfl

/-- Every listed weight is nudged by its own window and clamped at one threshold. -/
theorem OnSimplex.clamped (simplex : OnSimplex nexthops weights) (distinct : nexthops.Nodup)
    (nlri : Nlri) (snapshot : TcpRttSnapshot) :
    ∃ tau, ∀ nh ∈ nexthops.toFinset, weight (advance weights nlri nexthops snapshot) nh =
      clamp minimumWeight tau (nudged minimumWeight learningRate
        ((window? snapshot nlri nh).map gradient) (weight weights nh)) := by
  refine ⟨tau (descend (reconcile weights nexthops)
    (nexthops.map fun nh => (nh, (window? snapshot nlri nh).map gradient))), fun nh listed => ?_⟩
  have member := List.mem_toFinset.mp listed
  rw [weight, advance_eq, reconcile_of_same distinct simplex.keys, get?_project,
    get?_descend distinct (fun nh => (window? snapshot nlri nh).map gradient), if_pos member,
    get?_eq_weight ((simplex.keys nh).mpr member), ← nudge_eq]
  rfl

/-- The nexthops without a window end at the floor, with a hundred units each. -/
def Relegates (order : IterOrder) (descent : Descent) (nlri : Nlri) (nexthops : List Nexthop)
    (snapshot : TcpRttSnapshot) : Prop :=
  ∃ weighted after, step order descent nlri nexthops snapshot = .ok (some weighted, after) ∧
    ∀ nh ∈ nexthops, window? snapshot nlri nh = none →
      (after.stored nlri).get? nh = some (1 / 100) ∧ ⟨nh, 100⟩ ∈ weighted

/-- The share of a nexthop that is stored at the floor. -/
theorem mem_weightedOf_floor {order : IterOrder} {nh : Nexthop} (input : Quantisable weights)
    (total : weights.values.sum = 1) (floored : weights.get? nh = some (1 / 100)) :
    ⟨nh, 100⟩ ∈ weightedOf order weights := by
  have key : nh ∈ weights.keys := AList.mem_keys.mp (FiniteMap.mem_of_get? floored)
  have listed := (nexthops_toppedOf order weights).mem_iff.mpr key
  obtain ⟨share, member, rfl⟩ := List.mem_map.mp listed
  have hundred : (1 / 100 : ℚ) = ((100 : ℕ) : ℚ) / weightDenominator.toNat := by
    rw [cast_weightDenominator]
    norm_num
  have units : share.weight.toNat = 100 := weight_of_whole input.balanced total member (hundred ▸ floored)
  have same : share.weight = 100 := UInt16.toNat_inj.mp units
  exact List.mem_map.mpr ⟨share, member, by rw [same]⟩

theorem OnSimplex.floored_iff (simplex : OnSimplex nexthops weights) {nh : Nexthop}
    (member : nh ∈ nexthops) :
    weights.get? nh = some (1 / 100) ↔ weight weights nh = minimumWeight := by
  rw [get?_eq_weight ((simplex.keys nh).mpr member), Option.some.injEq, minimumWeight]

/-- A step relegates when what it stores for the nexthops without a window is the floor. -/
theorem relegates_iff_floored (order : IterOrder) {descent : Descent}
    (before : descent.stored nlri = weights) (distinct : nexthops.Nodup) (nonempty : nexthops ≠ [])
    (few : nexthops.length ≤ maxNexthops) :
    Relegates order descent nlri nexthops snapshot ↔
      ∀ nh ∈ nexthops.toFinset, (window? snapshot nlri nh).map gradient = none →
        weight (advance weights nlri nexthops snapshot) nh = minimumWeight := by
  have stepped := step_eq order descent nlri snapshot nonempty few
  rw [before] at stepped
  have after : OnSimplex nexthops (advance weights nlri nexthops snapshot) :=
    onSimplex_advance snapshot distinct nonempty few
  constructor
  · intro relegates nh listed absent
    obtain ⟨weighted, next, returned, all⟩ := relegates
    rw [stepped] at returned
    cases returned
    have member := List.mem_toFinset.mp listed
    have floored := (all nh member (Option.map_eq_none_iff.mp absent)).1
    rw [stored_insert, if_pos rfl] at floored
    exact (after.floored_iff member).mp floored
  · intro all
    refine ⟨_, _, stepped, fun nh member absent => ?_⟩
    have floored := (after.floored_iff member).mpr
      (all nh (List.mem_toFinset.mpr member) (Option.map_eq_none_iff.mpr absent))
    rw [stored_insert, if_pos rfl]
    exact ⟨floored, mem_weightedOf_floor (quantisable_advance nonempty few) after.sum floored⟩

/-- A step relegates exactly when it takes no weight from anyone: every nexthop that
    is above the floor would have to have a window that costs nothing. -/
theorem relegates_iff (order : IterOrder) (descent : Descent) (nlri : Nlri)
    (nexthops : List Nexthop) (snapshot : TcpRttSnapshot) (weights : Weights)
    (stored : descent.weights.get? nlri = some weights) (distinct : nexthops.Nodup)
    (few : nexthops.length ≤ maxNexthops) (simplex : OnSimplex nexthops weights) :
    Relegates order descent nlri nexthops snapshot ↔
      (∀ nh ∈ nexthops, window? snapshot nlri nh ≠ none) ∨
        ∀ nh ∈ nexthops, weights.get? nh = some (1 / 100) ∨
          ∃ win, window? snapshot nlri nh = some win ∧ win.avgSrttUs = 0 := by
  have before : descent.stored nlri = weights := by
    rw [Descent.stored, stored]
    rfl
  have after : OnSimplex nexthops (advance weights nlri nexthops snapshot) :=
    onSimplex_advance snapshot distinct simplex.nonempty few
  obtain ⟨tau, clamped⟩ := simplex.clamped distinct nlri snapshot
  have nonneg : ∀ nh ∈ nexthops.toFinset, ∀ c ∈ (window? snapshot nlri nh).map gradient, 0 ≤ c := by
    intro nh _ c measured
    obtain ⟨win, -, rfl⟩ := Option.map_eq_some_iff.mp measured
    exact gradient_nonneg win
  rw [relegates_iff_floored order before distinct simplex.nonempty few,
    floored_iff clamped simplex.feasible after.feasible (floors_lt_one distinct few)
      learningRate_pos nonneg]
  have free : ∀ nh, (window? snapshot nlri nh).map gradient = some 0 ↔
      ∃ win, window? snapshot nlri nh = some win ∧ win.avgSrttUs = 0 := by
    intro nh
    rw [Option.map_eq_some_iff]
    simp only [gradient_eq_zero]
  simp only [List.mem_toFinset, ne_eq, Option.map_eq_none_iff, free]
  refine or_congr_right (forall₂_congr fun nh member => ?_)
  rw [simplex.floored_iff member]

end

section TwoNexthops

private def measuredNlri : Nlri := .v4 (.clamped (.new 10 44 0 0) 24)

private def quickHop : Nexthop := .v4 (.new 192 0 2 41)

private def silentHop : Nexthop := .v4 (.new 192 0 2 42)

private def pairWeights (quick silent : ℚ) : Weights :=
  ((∅ : Weights).insert quickHop quick).insert silentHop silent

private def storing (quick silent : ℚ) : Descent :=
  ⟨(∅ : FiniteMap Nlri _).insert measuredNlri (pairWeights quick silent)⟩

private theorem onSimplex_pair {quick silent : ℚ}
    (floor : ∀ w ∈ (pairWeights quick silent).values, minimumWeight ≤ w)
    (sum : (pairWeights quick silent).values.sum = 1) :
    OnSimplex [quickHop, silentHop] (pairWeights quick silent) := by
  refine ⟨fun nh => ?_, floor, sum⟩
  simp [pairWeights, or_comm]

private def seeing (windows : List (Nexthop × TcpRttWindow)) : TcpRttSnapshot :=
  ⟨(∅ : FiniteMap Nlri _).insert measuredNlri
    (windows.foldl (fun found entry => found.insert entry.1 entry.2) ∅)⟩

private def quickWindow : TcpRttWindow := ⟨12, 20000, 25000, 18000⟩

private def slowWindow : TcpRttWindow := ⟨9, 80000, 90000, 18000⟩

private def idleWindow : TcpRttWindow := ⟨3, 0, 0, 0⟩

theorem steers_towards_quick :
    ∃ weighted after, step .stored (storing (1 / 2) (1 / 2)) measuredNlri [quickHop, silentHop]
        (seeing [(quickHop, quickWindow), (silentHop, slowWindow)]) = .ok (some weighted, after) ∧
      1 / 2 ≤ weight (after.stored measuredNlri) quickHop := by
  obtain ⟨weighted, after, returned, gains, -⟩ :=
    steers_towards_cheap .stored (storing (1 / 2) (1 / 2)) measuredNlri [quickHop, silentHop]
      (seeing [(quickHop, quickWindow), (silentHop, slowWindow)]) (pairWeights (1 / 2) (1 / 2))
      (fun nh => if nh = quickHop then quickWindow else slowWindow)
      (FiniteMap.get?_insert_self _ _ _) (by decide) (by decide)
      (onSimplex_pair (by decide +kernel) (by decide +kernel)) (by decide +kernel)
  refine ⟨weighted, after, returned, ?_⟩
  have gained := gains quickHop (by decide) (by decide +kernel)
  have half : weight (pairWeights (1 / 2) (1 / 2)) quickHop = 1 / 2 := by decide +kernel
  rwa [half] at gained

/-- The one nexthop above the floor has a window that costs nothing. -/
theorem relegates_beside_idle :
    Relegates .stored (storing (99 / 100) (1 / 100)) measuredNlri [quickHop, silentHop]
      (seeing [(quickHop, idleWindow)]) := by
  have simplex : OnSimplex [quickHop, silentHop] (pairWeights (99 / 100) (1 / 100)) :=
    onSimplex_pair (by decide +kernel) (by decide +kernel)
  have condition : ∀ nh ∈ [quickHop, silentHop],
      (pairWeights (99 / 100) (1 / 100)).get? nh = some (1 / 100) ∨
        ∃ win, window? (seeing [(quickHop, idleWindow)]) measuredNlri nh = some win ∧
          win.avgSrttUs = 0 := by
    intro nh member
    cases List.mem_pair.mp member with
    | inl quick =>
        subst quick
        exact .inr ⟨idleWindow, by decide +kernel, rfl⟩
    | inr silent =>
        subst silent
        exact .inl (by decide +kernel)
  exact (relegates_iff .stored _ measuredNlri _ (seeing [(quickHop, idleWindow)])
    (pairWeights (99 / 100) (1 / 100)) (FiniteMap.get?_insert_self _ _ _) (by decide) (by decide)
    simplex).mpr (.inr condition)

/-- A quarter of the traffic stays with the nexthop nothing is known about. -/
theorem silent_hop_keeps_quarter :
    OnSimplex [quickHop, silentHop] (pairWeights (1 / 2) (1 / 2)) ∧
      ¬ Relegates .stored (storing (1 / 2) (1 / 2)) measuredNlri [quickHop, silentHop]
        (seeing [(quickHop, quickWindow)]) ∧
      weight (advance ((storing (1 / 2) (1 / 2)).stored measuredNlri) measuredNlri
        [quickHop, silentHop] (seeing [(quickHop, quickWindow)])) silentHop = 25555 / 100000 := by
  refine ⟨onSimplex_pair (by decide +kernel) (by decide +kernel), ?_, by decide +kernel⟩
  intro relegates
  obtain ⟨weighted, after, returned, floored⟩ := relegates
  rw [step_eq .stored _ measuredNlri _ (by decide) (by decide)] at returned
  cases returned
  have floor := (floored silentHop (by decide) (by decide +kernel)).1
  rw [stored_insert, if_pos rfl] at floor
  revert floor
  decide +kernel

end TwoNexthops

end Erez.Daemon.Descent
