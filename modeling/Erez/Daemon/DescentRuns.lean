import Erez.Daemon.Quantise
import Erez.Lib.OnlineDescent
import Erez.Lib.Run

/-! # Runs of descent steps

One call of `step` never panics and always returns a list that `FibEntry::new`
accepts. That its nexthops are the ones passed in is decided by `reconcile`: it
is so exactly in the `Settled` case. Over ticks with a fixed list, the weights
entering each tick are those of projected online gradient descent.
-/

namespace Erez.Daemon.Descent

open Erez.Lib SimplexProjection LargestRemainder

/-! ## One call -/

section Advance

variable {weights : Weights} {nlri : Nlri} {nexthops : List Nexthop} {snapshot : TcpRttSnapshot}

theorem mem_advance {nh : Nexthop} :
    nh ∈ advance weights nlri nexthops snapshot ↔ nh ∈ reconcile weights nexthops := by
  rw [advance, mem_project, mem_descend]

theorem mem_advance_of_mem {nh : Nexthop} (h : nh ∈ nexthops) :
    nh ∈ advance weights nlri nexthops snapshot :=
  mem_advance.mpr (mem_reconcile h)

theorem keys_advance_ne_nil (nonempty : nexthops ≠ []) :
    (advance weights nlri nexthops snapshot).keys ≠ [] := by
  obtain ⟨nh, member⟩ := List.exists_mem_of_ne_nil nexthops nonempty
  exact List.ne_nil_of_mem (AList.mem_keys.mp (mem_advance_of_mem member))

theorem length_keys_advance :
    (advance weights nlri nexthops snapshot).keys.length ≤ nexthops.length := by
  have same : (advance weights nlri nexthops snapshot).keys.Perm (reconcile weights nexthops).keys :=
    FiniteMap.keys_perm fun _ => mem_advance
  exact same.length_eq.trans_le (card_reconcile weights nexthops)

theorem minimumWeight_le_advance {w : ℚ}
    (h : w ∈ (advance weights nlri nexthops snapshot).values) : minimumWeight ≤ w :=
  minimumWeight_le_project h

theorem sum_advance (nonempty : nexthops ≠ []) (few : nexthops.length ≤ maxNexthops) :
    (advance weights nlri nexthops snapshot).values.sum = 1 := by
  have nonemptyKeys : (advance weights nlri nexthops snapshot).keys ≠ [] :=
    keys_advance_ne_nil nonempty
  have size : (advance weights nlri nexthops snapshot).keys.length ≤ nexthops.length :=
    length_keys_advance
  rw [advance, keys_project] at nonemptyKeys size
  exact sum_project nonemptyKeys (by simp only [maxNexthops] at few; omega)

theorem quantisable_advance (nonempty : nexthops ≠ []) (few : nexthops.length ≤ maxNexthops) :
    Quantisable (advance weights nlri nexthops snapshot) where
  nonneg := by
    intro w member
    have floor := minimumWeight_le_advance member
    exact le_trans (by norm_num [minimumWeight]) floor
  close := by
    rw [sum_advance nonempty few]
    norm_num
  countable := by
    have size : (advance weights nlri nexthops snapshot).keys.length ≤ nexthops.length :=
      length_keys_advance
    simp only [maxNexthops] at few
    omega

end Advance

/-- The list a call returns. -/
def weightedOf (order : IterOrder) (weights : Weights) : List WeightedNexthop :=
  (toppedOf order weights).map fun share => ⟨share.nexthop, share.weight⟩

/-- One call: it returns the quantised weights and stores the exact ones. -/
theorem step_eq (order : IterOrder) (descent : Descent) (nlri : Nlri) {nexthops : List Nexthop}
    (snapshot : TcpRttSnapshot) (nonempty : nexthops ≠ [])
    (few : nexthops.length ≤ maxNexthops) :
    step order descent nlri nexthops snapshot =
      .ok (some (weightedOf order (advance (descent.stored nlri) nlri nexthops snapshot)),
        ⟨descent.weights.insert nlri (advance (descent.stored nlri) nlri nexthops snapshot)⟩) := by
  have input : Quantisable (advance (descent.stored nlri) nlri nexthops snapshot) :=
    quantisable_advance nonempty few
  have quantised := quantise_eq order input
  simp only [step, if_neg nonempty, quantised]
  rfl

theorem stored_insert (weights : FiniteMap Nlri Weights) (nlri other : Nlri) (w : Weights) :
    stored ⟨weights.insert nlri w⟩ other =
      if other = nlri then w else stored ⟨weights⟩ other := by
  simp only [stored, FiniteMap.get?_insert]
  split <;> rfl

theorem nexthops_weightedOf (order : IterOrder) (weights : Weights) :
    ((weightedOf order weights).map (·.nexthop)).Perm weights.keys := by
  simpa only [weightedOf, List.map_map, Function.comp_def] using nexthops_toppedOf order weights

theorem sum_weightedOf (order : IterOrder) {weights : Weights} (input : Balanced weights) :
    ((weightedOf order weights).map (·.weight.toNat)).sum = weightDenominator.toNat := by
  simpa only [weightedOf, List.map_map, Function.comp_def] using sum_toppedOf order input

/-- A weight above the floor is a hundred units or more. -/
theorem hundred_le_weightedOf {order : IterOrder} {weights : Weights} (input : Balanced weights)
    (floor : ∀ w ∈ weights.values, minimumWeight ≤ w) {weighted : WeightedNexthop}
    (h : weighted ∈ weightedOf order weights) : 100 ≤ weighted.weight.toNat := by
  obtain ⟨share, member, rfl⟩ := List.mem_map.mp h
  obtain ⟨w, -, value, cut⟩ := weight_toppedOf input member
  have above : (100 : ℤ) ≤ ⌊w * weightDenominator.toNat⌋ := by
    have lower := floor w value
    rw [Int.le_floor, cast_weightDenominator]
    simp only [minimumWeight] at lower
    push_cast
    linarith
  have rounded : 100 ≤ (asU16 (w * weightDenominator.toNat)).toNat := by
    simp only [asU16, UInt16.toNat_ofNat']
    omega
  change 100 ≤ share.weight.toNat
  rcases cut with same | raised <;> omega

theorem accepts_weightedOf {order : IterOrder} {weights : Weights} (input : Quantisable weights)
    (floor : ∀ w ∈ weights.values, minimumWeight ≤ w) (nonempty : weights.keys ≠ [])
    (few : weights.keys.length ≤ maxNexthops) : FibEntry.Accepts (weightedOf order weights) where
  nonempty := by
    intro empty
    have perm := nexthops_weightedOf order weights
    rw [empty] at perm
    exact nonempty perm.nil_eq.symm
  few := by
    have size := (nexthops_weightedOf order weights).length_eq
    rw [List.length_map] at size
    exact size.trans_le few
  sum := by
    have size := (nexthops_weightedOf order weights).length_eq
    rw [List.length_map] at size
    apply UInt32.toNat_inj.mp
    rw [toNat_weightSum (size.trans_le few), sum_weightedOf order input.balanced, UInt16.toNat_toUInt32]
  nonzero := by
    intro weighted member zero
    have large := hundred_le_weightedOf input.balanced floor member
    rw [zero] at large
    exact absurd large (by decide)

/-- `FibEntry::new` accepts whatever a tick computes. -/
theorem accepts_advance (order : IterOrder) (weights : Weights) (nlri : Nlri)
    {nexthops : List Nexthop} (snapshot : TcpRttSnapshot) (nonempty : nexthops ≠ [])
    (few : nexthops.length ≤ maxNexthops) :
    FibEntry.Accepts (weightedOf order (advance weights nlri nexthops snapshot)) :=
  accepts_weightedOf (quantisable_advance nonempty few) (fun _ => minimumWeight_le_advance)
    (keys_advance_ne_nil nonempty) (length_keys_advance.trans few)

theorem mem_weightedOf_advance {order : IterOrder} {weights : Weights} {nlri : Nlri}
    {nexthops : List Nexthop} {snapshot : TcpRttSnapshot} {nh : Nexthop} :
    nh ∈ (weightedOf order (advance weights nlri nexthops snapshot)).map (·.nexthop) ↔
      nh ∈ reconcile weights nexthops := by
  rw [(nexthops_weightedOf _ _).mem_iff, ← AList.mem_keys, mem_advance]

/-! ## Runs of calls -/

/-- A call of `step` as the controller makes it: at least one nexthop, and no more
    than fit into an entry. A nexthop may be listed twice. -/
structure Call where
  order : IterOrder
  nlri : Nlri
  nexthops : List Nexthop
  snapshot : TcpRttSnapshot
  nonempty : nexthops ≠ []
  few : nexthops.length ≤ maxNexthops

def CallStep (descent : Descent) (call : Call) (after : Descent) : Prop :=
  ∃ weighted,
    step call.order descent call.nlri call.nexthops call.snapshot = .ok (weighted, after)

/-- An installable list that probes every nexthop, backed by weights on the simplex. -/
structure Installed (call : Call) (weighted : List WeightedNexthop) (after : Descent) : Prop where
  once : (weighted.map (·.nexthop)).Nodup
  nexthops : ∀ nh, nh ∈ weighted.map (·.nexthop) ↔ nh ∈ call.nexthops
  total : (weighted.map (·.weight.toNat)).sum = 10000
  probing : ∀ w ∈ weighted, 100 ≤ w.weight.toNat
  accepted : ∃ entry, FibEntry.new weighted = .ok entry
  keys : ∀ nh, nh ∈ after.stored call.nlri ↔ nh ∈ call.nexthops
  floor : ∀ w ∈ (after.stored call.nlri).values, 1 / 100 ≤ w
  sum : (after.stored call.nlri).values.sum = 1

/-- The call returns, without a panic, such a list. -/
def Installable (descent : Descent) (call : Call) : Prop :=
  ∃ weighted after,
    step call.order descent call.nlri call.nexthops call.snapshot = .ok (some weighted, after) ∧
      Installed call weighted after

theorem installable_iff_settled (descent : Descent) (call : Call) :
    Installable descent call ↔ Settled (descent.stored call.nlri) call.nexthops := by
  have stepped := step_eq call.order descent call.nlri call.snapshot call.nonempty call.few
  constructor
  · rintro ⟨weighted, after, returned, installed⟩
    rw [stepped] at returned
    obtain ⟨rfl, rfl⟩ : _ = weighted ∧ _ = after := by simpa using returned
    by_contra unsettled
    obtain ⟨stale, kept, unlisted⟩ := exists_stale unsettled
    exact unlisted ((installed.nexthops stale).mp (mem_weightedOf_advance.mpr kept))
  · intro settled
    have input : Quantisable
        (advance (descent.stored call.nlri) call.nlri call.nexthops call.snapshot) :=
      quantisable_advance call.nonempty call.few
    refine ⟨_, _, stepped, ?_⟩
    constructor
    case once => exact (nexthops_weightedOf _ _).nodup_iff.mpr (AList.keys_nodup _)
    case nexthops =>
      intro nh
      rw [mem_weightedOf_advance, mem_reconcile_of_settled settled]
    case total => exact sum_weightedOf call.order input.balanced
    case probing =>
      intro w member
      exact hundred_le_weightedOf input.balanced (fun _ => minimumWeight_le_advance) member
    case accepted =>
      exact FibEntry.isOk_new_iff.mpr
        (accepts_advance _ _ _ _ call.nonempty call.few)
    all_goals rw [stored_insert, if_pos rfl]
    case keys =>
      intro nh
      rw [mem_advance, mem_reconcile_of_settled settled]
    case floor => exact fun _ => minimumWeight_le_advance
    case sum => exact sum_advance call.nonempty call.few

/-- Over a whole run from the empty state, every call is installable exactly when
    no call finds as many stale weights as it lists nexthops. -/
theorem along_installable_iff (calls : List Call) :
    Along CallStep Installable default calls ↔
      Along CallStep (fun descent call => Settled (descent.stored call.nlri) call.nexthops)
        default calls :=
  Along.congr installable_iff_settled default calls

section Stale

private def nlriA : Nlri := .v4 (.clamped (.new 10 1 0 0) 24)

private def nexthopA : Nexthop := .v4 (.new 192 0 2 1)

private def nexthopB : Nexthop := .v4 (.new 192 0 2 2)

/-- Two paths with their own nexthops, then the second path moves to the first's. -/
def movedPath : List Call :=
  [⟨.stored, nlriA, [nexthopA, nexthopB], ⟨∅⟩, by decide, by decide⟩,
    ⟨.stored, nlriA, [nexthopA, nexthopA], ⟨∅⟩, by decide, by decide⟩]

/-- The second call still hands out weight for the nexthop nobody offers. -/
theorem movedPath_not_installable : ¬ Along CallStep Installable default movedPath := by
  intro h
  obtain ⟨-, later⟩ := h
  have second := (later _ ⟨_, step_eq .stored default nlriA ⟨∅⟩ (by decide) (by decide)⟩).1
  rw [installable_iff_settled] at second
  revert second
  decide +kernel

end Stale

/-! ## Ticks with a fixed list -/

theorem learningRate_pos : 0 < learningRate := by
  norm_num [learningRate]

/-- The weight of a nexthop as it enters the gradient update. -/
def entering (descent : Descent) (nlri : Nlri) (nexthops : List Nexthop) (nh : Nexthop) : ℚ :=
  ((reconcile (descent.stored nlri) nexthops).get? nh).getD 0

/-- The gradient of a nexthop, from its RTT window. -/
def cost (snapshot : TcpRttSnapshot) (nlri : Nlri) (nh : Nexthop) : ℚ :=
  ((window? snapshot nlri nh).map gradient).getD 0

/-- The states before each tick of a run that gives every tick the same list. -/
structure Ticks (nlri : Nlri) (nexthops : List Nexthop) (order : ℕ → IterOrder)
    (snapshots : ℕ → TcpRttSnapshot) (T : ℕ) (descents : ℕ → Descent) : Prop where
  ticked : ∀ t < T, ∃ weighted,
    step (order t) (descents t) nlri nexthops (snapshots t) = .ok (some weighted, descents (t + 1))

section Ticks

variable {nlri : Nlri} {nexthops : List Nexthop}

/-- Weights of exactly the listed nexthops are kept. -/
theorem reconcile_of_same {weights : Weights} (distinct : nexthops.Nodup)
    (same : ∀ nh, nh ∈ weights ↔ nh ∈ nexthops) : reconcile weights nexthops = weights := by
  apply if_neg
  rintro (size | ⟨nh, member, absent⟩)
  · exact size ((card_keys same).trans (List.toFinset_card_of_nodup distinct))
  · exact absent ((same nh).mpr member)

theorem entering_of_fresh {descent : Descent} (fresh : descent.weights.get? nlri = none)
    {nh : Nexthop} (h : nh ∈ nexthops) :
    entering descent nlri nexthops nh = 1 / (nexthops.length : ℚ) := by
  have changed : Changed (descent.stored nlri) nexthops := by
    rw [stored, fresh]
    exact .inr ⟨nh, h, AList.notMem_empty nh⟩
  rw [entering, reconcile, if_pos changed, get?_uniform h]
  rfl

/-- What the projection is applied to: each weight moved once along its gradient. -/
private theorem get?_moved {weights : Weights} {snapshot : TcpRttSnapshot}
    (distinct : nexthops.Nodup)
    (seen : ∀ nh ∈ nexthops, ∃ win, window? snapshot nlri nh = some win) {nh : Nexthop}
    (h : nh ∈ nexthops) :
    (descend (reconcile weights nexthops)
        (nexthops.map fun nh => (nh, (window? snapshot nlri nh).map gradient))).get? nh =
      some (((reconcile weights nexthops).get? nh).getD 0 -
        learningRate * cost snapshot nlri nh) := by
  obtain ⟨win, found⟩ := seen nh h
  have kept : nh ∈ reconcile weights nexthops := mem_reconcile h
  obtain ⟨w, weight⟩ := FiniteMap.get?_of_mem kept
  rw [get?_descend distinct, if_pos h, cost, found, weight]
  rfl

theorem advance_eq (weights : Weights) (snapshot : TcpRttSnapshot) :
    advance weights nlri nexthops snapshot =
      project (descend (reconcile weights nexthops)
        (nexthops.map fun nh => (nh, (window? snapshot nlri nh).map gradient))) := by
  simp only [advance, ← List.map_prod_left_eq_zip]

/-- Under a fixed list of distinct nexthops the weights stored by one tick are the
    ones that enter the next. -/
theorem entering_after {descent : Descent} {snapshot : TcpRttSnapshot} (distinct : nexthops.Nodup)
    (nh : Nexthop) :
    entering ⟨descent.weights.insert nlri (advance (descent.stored nlri) nlri nexthops snapshot)⟩
        nlri nexthops nh =
      ((advance (descent.stored nlri) nlri nexthops snapshot).get? nh).getD 0 := by
  have same : ∀ other, other ∈ advance (descent.stored nlri) nlri nexthops snapshot ↔
      other ∈ nexthops := by
    intro other
    rw [mem_advance, mem_reconcile_of_settled (.inl distinct)]
  rw [entering, stored_insert, if_pos rfl, reconcile_of_same distinct same]

/-- One tick clamps the moved weights at a threshold that leaves a total of one. -/
theorem exists_clamped {weights : Weights} {snapshot : TcpRttSnapshot} (distinct : nexthops.Nodup)
    (nonempty : nexthops ≠ []) (few : nexthops.length ≤ maxNexthops)
    (seen : ∀ nh ∈ nexthops, ∃ win, window? snapshot nlri nh = some win) :
    ∃ threshold,
      (∀ nh ∈ nexthops, (advance weights nlri nexthops snapshot).get? nh =
        some (clamp minimumWeight threshold
          (((reconcile weights nexthops).get? nh).getD 0 -
            learningRate * cost snapshot nlri nh))) ∧
      ∑ nh ∈ nexthops.toFinset, ((advance weights nlri nexthops snapshot).get? nh).getD 0 = 1 := by
  refine ⟨tau (descend (reconcile weights nexthops)
    (nexthops.map fun nh => (nh, (window? snapshot nlri nh).map gradient))), ?_, ?_⟩
  · intro nh member
    rw [advance_eq, get?_project, get?_moved distinct seen member]
    rfl
  · have listed : (advance weights nlri nexthops snapshot).keys.toFinset = nexthops.toFinset :=
      keys_toFinset fun nh => mem_advance.trans (mem_reconcile_of_settled (.inl distinct) nh)
    rw [← listed, ← FiniteMap.sum_values (advance weights nlri nexthops snapshot)]
    exact sum_advance nonempty few

/-- One tick is a projected gradient step: it ends up no farther from any feasible
    point than the unprojected step. -/
theorem sqDist_entering_after {descent : Descent} {snapshot : TcpRttSnapshot}
    (distinct : nexthops.Nodup) (nonempty : nexthops ≠ []) (few : nexthops.length ≤ maxNexthops)
    (seen : ∀ nh ∈ nexthops, ∃ win, window? snapshot nlri nh = some win) {u : Nexthop → ℚ}
    (feasible : Feasible minimumWeight 1 nexthops.toFinset u) :
    sqDist nexthops.toFinset
        (entering
          ⟨descent.weights.insert nlri (advance (descent.stored nlri) nlri nexthops snapshot)⟩ nlri
          nexthops) u ≤
      sqDist nexthops.toFinset
        (fun nh => entering descent nlri nexthops nh - learningRate * cost snapshot nlri nh) u := by
  set moved := fun nh => entering descent nlri nexthops nh - learningRate * cost snapshot nlri nh
  obtain ⟨threshold, clamped, total⟩ : ∃ threshold,
      (∀ nh ∈ nexthops, (advance (descent.stored nlri) nlri nexthops snapshot).get? nh =
        some (clamp minimumWeight threshold (moved nh))) ∧
      ∑ nh ∈ nexthops.toFinset,
        ((advance (descent.stored nlri) nlri nexthops snapshot).get? nh).getD 0 = 1 :=
    exists_clamped distinct nonempty few seen
  have entered : ∀ nh ∈ nexthops.toFinset,
      ((advance (descent.stored nlri) nlri nexthops snapshot).get? nh).getD 0 =
        clamp minimumWeight threshold (moved nh) := by
    intro nh member
    rw [clamped nh (List.mem_toFinset.mp member)]
    rfl
  have onto : ∑ nh ∈ nexthops.toFinset, clamp minimumWeight threshold (moved nh) = 1 := by
    rw [← Finset.sum_congr rfl entered]
    exact total
  have same : sqDist nexthops.toFinset
      (entering ⟨descent.weights.insert nlri (advance (descent.stored nlri) nlri nexthops snapshot)⟩
        nlri nexthops) u =
      sqDist nexthops.toFinset (fun nh => clamp minimumWeight threshold (moved nh)) u := by
    refine Finset.sum_congr rfl fun nh member => ?_
    rw [entering_after distinct, entered nh member]
  rw [same]
  exact sqDist_clamp_le onto feasible

/-- The state after a tick. -/
theorem Ticks.succ_eq {order : ℕ → IterOrder} {snapshots : ℕ → TcpRttSnapshot} {T : ℕ}
    {descents : ℕ → Descent} (ticks : Ticks nlri nexthops order snapshots T descents)
    (nonempty : nexthops ≠ []) (few : nexthops.length ≤ maxNexthops) {t : ℕ} (ht : t < T) :
    descents (t + 1) = ⟨(descents t).weights.insert nlri
      (advance ((descents t).stored nlri) nlri nexthops (snapshots t))⟩ := by
  obtain ⟨weighted, ticked⟩ := ticks.ticked t ht
  rw [step_eq (order t) _ nlri (snapshots t) nonempty few] at ticked
  obtain ⟨-, next⟩ := Prod.mk.inj (Except.ok.inj ticked)
  exact next.symm

/-- Every list of the right size can be ticked for as long as one likes. -/
theorem exists_ticks (start : Descent) (order : ℕ → IterOrder) (snapshots : ℕ → TcpRttSnapshot)
    (nonempty : nexthops ≠ []) (few : nexthops.length ≤ maxNexthops) :
    ∃ descents, descents 0 = start ∧ ∀ T, Ticks nlri nexthops order snapshots T descents := by
  let next (t : ℕ) (descent : Descent) : Descent :=
    ⟨descent.weights.insert nlri (advance (descent.stored nlri) nlri nexthops (snapshots t))⟩
  refine ⟨fun t => Nat.rec start next t, rfl, fun T => ⟨fun t _ => ?_⟩⟩
  exact Exists.intro _ <| step_eq (order t) _ nlri (snapshots t) nonempty few

end Ticks

/-- The regret of the steering weights. From a state that has no weights for the
    NLRI yet, any number of ticks over a fixed list of distinct nexthops succeeds,
    starts from equal weights, and does not do worse than a fixed distribution by
    more than the bound of projected online gradient descent. -/
theorem regret_of_ticks (start : Descent) (nlri : Nlri) (nexthops : List Nexthop)
    (order : ℕ → IterOrder) (snapshots : ℕ → TcpRttSnapshot) (T : ℕ)
    (fresh : start.weights.get? nlri = none) (distinct : nexthops.Nodup)
    (nonempty : nexthops ≠ []) (few : nexthops.length ≤ maxNexthops)
    (seen : ∀ t < T, ∀ nh ∈ nexthops, ∃ win, window? (snapshots t) nlri nh = some win) :
    ∃ descents, descents 0 = start ∧ Ticks nlri nexthops order snapshots T descents ∧
      (∀ nh ∈ nexthops, entering (descents 0) nlri nexthops nh = 1 / nexthops.length) ∧
      ∀ u : Nexthop → ℚ, (∀ nh ∈ nexthops, minimumWeight ≤ u nh) →
        ∑ nh ∈ nexthops.toFinset, u nh = 1 →
        ∑ t ∈ Finset.range T, ∑ nh ∈ nexthops.toFinset,
            cost (snapshots t) nlri nh * (entering (descents t) nlri nexthops nh - u nh) ≤
          (∑ nh ∈ nexthops.toFinset, (entering (descents 0) nlri nexthops nh - u nh) ^ 2) /
              (2 * learningRate) +
            learningRate / 2 *
              ∑ t ∈ Finset.range T, ∑ nh ∈ nexthops.toFinset, cost (snapshots t) nlri nh ^ 2 := by
  obtain ⟨descents, started, allTicks⟩ :
      ∃ descents, descents 0 = start ∧ ∀ T, Ticks nlri nexthops order snapshots T descents :=
    exists_ticks start order snapshots nonempty few
  have ticks := allTicks T
  refine ⟨descents, started, ticks, ?_, ?_⟩
  · intro nh member
    rw [started]
    exact entering_of_fresh fresh member
  · intro u floor total
    have feasible : Feasible minimumWeight 1 nexthops.toFinset u :=
      ⟨fun nh member => floor nh (List.mem_toFinset.mp member), total⟩
    have closer : ∀ t < T,
        sqDist nexthops.toFinset (entering (descents (t + 1)) nlri nexthops) u ≤
          sqDist nexthops.toFinset (fun nh => entering (descents t) nlri nexthops nh -
            learningRate * cost (snapshots t) nlri nh) u := by
      intro t ht
      rw [ticks.succ_eq nonempty few ht]
      exact sqDist_entering_after distinct nonempty few (seen t ht) feasible
    have regret := OnlineDescent.regret_le learningRate_pos T closer
    simpa only [OnlineDescent.inner, sqDist, ← pow_two] using regret

/-- One nexthop at 20 ms, one at 80 ms. -/
private def measured : TcpRttSnapshot :=
  ⟨(∅ : FiniteMap Nlri _).insert nlriA
    (((∅ : FiniteMap Nexthop _).insert nexthopA ⟨12, 20000, 25000, 18000⟩).insert nexthopB
      ⟨9, 80000, 90000, 18000⟩)⟩

theorem regret_of_three_ticks :
    ∃ descents, descents 0 = default ∧
      Ticks nlriA [nexthopA, nexthopB] (fun _ => .stored) (fun _ => measured) 3 descents ∧
      entering (descents 0) nlriA [nexthopA, nexthopB] nexthopA = 1 / 2 := by
  obtain ⟨descents, started, ticks, equal, -⟩ :=
    regret_of_ticks default nlriA [nexthopA, nexthopB] (fun _ => .stored) (fun _ => measured) 3 rfl
      (by decide) (by decide) (by decide) (by
        intro t _ nh member
        rcases List.mem_pair.mp member with rfl | rfl
        · exact ⟨⟨12, 20000, 25000, 18000⟩, by decide +kernel⟩
        · exact ⟨⟨9, 80000, 90000, 18000⟩, by decide +kernel⟩)
  exact ⟨descents, started, ticks, equal nexthopA (by decide)⟩

end Erez.Daemon.Descent
