import Erez.Daemon.Agreement
import Erez.Daemon.Interference
import Erez.Daemon.StoredWeights

/-! # What one tick learns, the next one starts from

Between two ticks nothing writes the stored weights, and in a tick each prefix
only writes its own, so a prefix comes to its turn with the weights that the tick
before stored for it. Whether `reconcile` hands them on is a question of the list
alone: it counts paths where it should count nexthops, so a list that repeats a
nexthop has its weights thrown away at every tick.
-/

namespace Erez.Daemon

open Erez.Lib

namespace Descent

variable {weights : Weights} {nlri : Nlri} {nexthops : List Nexthop} {snapshot : TcpRttSnapshot}

/-- The test of `reconcile` looks at the keys only. -/
theorem changed_congr {other : Weights} (same : ∀ nh, nh ∈ other ↔ nh ∈ weights) :
    Changed other nexthops ↔ Changed weights nexthops := by
  have size : other.keys.length = weights.keys.length := (FiniteMap.keys_perm same).length_eq
  simp only [Changed, size, same]

private theorem nodup_of_card (card : nexthops.toFinset.card = nexthops.length) : nexthops.Nodup :=
  Multiset.toFinset_card_eq_card_iff_nodup.mp card

/-- Fewer distinct nexthops than paths: equal weights then leave some of the traffic out. -/
theorem sum_uniform_lt (nonempty : nexthops ≠ []) (repeats : ¬ nexthops.Nodup) :
    (uniform nexthops).values.sum < 1 := by
  have fewer : nexthops.toFinset.card < nexthops.length := by
    refine lt_of_le_of_ne nexthops.toFinset_card_le fun same => repeats ?_
    exact nodup_of_card same
  have positive : (0 : ℚ) < nexthops.length := by exact_mod_cast List.length_pos_iff.mpr nonempty
  rw [sum_uniform, div_lt_one positive]
  exact_mod_cast fewer

/-- After a call that started from equal weights the keys are the listed nexthops. -/
theorem mem_advance_of_changed (changed : Changed weights nexthops) (nh : Nexthop) :
    nh ∈ advance weights nlri nexthops snapshot ↔ nh ∈ nexthops :=
  mem_advance.trans (mem_reconcile_of_settled (.inr changed) nh)

/-- The next call resets what this one stored. -/
theorem reconcile_advance_of_repeats (nonempty : nexthops ≠ []) (few : nexthops.length ≤ maxNexthops)
    (repeats : ¬ nexthops.Nodup) (changed : Changed weights nexthops) :
    reconcile (advance weights nlri nexthops snapshot) nexthops ≠
      advance weights nlri nexthops snapshot := by
  have keys (nh : Nexthop) : nh ∈ advance weights nlri nexthops snapshot ↔ nh ∈ nexthops :=
    mem_advance_of_changed changed nh
  have again : Changed (advance weights nlri nexthops snapshot) nexthops := by
    refine .inl fun size => repeats ?_
    rw [card_keys keys] at size
    exact nodup_of_card size
  intro kept
  rw [reconcile, if_pos again] at kept
  have total : (uniform nexthops).values.sum = 1 := by
    rw [kept]
    exact sum_advance nonempty few
  exact (sum_uniform_lt nonempty repeats).ne total

theorem reconcile_advance_of_distinct (distinct : nexthops.Nodup) :
    reconcile (advance weights nlri nexthops snapshot) nexthops =
      advance weights nlri nexthops snapshot :=
  reconcile_of_same distinct fun nh =>
    mem_advance.trans (mem_reconcile_of_settled (.inl distinct) nh)

theorem reconcile_advance_of_unchanged (kept : ¬ Changed weights nexthops) :
    reconcile (advance weights nlri nexthops snapshot) nexthops =
      advance weights nlri nexthops snapshot := by
  have same : ∀ nh, nh ∈ advance weights nlri nexthops snapshot ↔ nh ∈ weights := by
    intro nh
    rw [mem_advance, reconcile, if_neg kept]
  exact if_neg (kept ∘ (changed_congr same).mp)

end Descent

namespace Controller

/-- The nexthops that a tick passes to `step` for an NLRI. -/
def offered (c : Controller) (nlri : Nlri) : List Nexthop :=
  (c.rib.nexthops nlri).take maxNexthops

theorem offered_ne_nil {c : Controller} {nlri : Nlri} (present : nlri ∈ c.rib.table) :
    c.offered nlri ≠ [] := by
  simpa [offered, Rib.nexthops, maxNexthops] using Rib.mem_table_iff.mp present

theorem length_offered (c : Controller) (nlri : Nlri) : (c.offered nlri).length ≤ maxNexthops :=
  List.length_take_le _ _

section Tick

variable {snapshot : TcpRttSnapshot} {order : Nlri → IterOrder} {c after : Controller}
  {nlri : Nlri}

theorem rib_steerNlri (steered : steerNlri snapshot order c nlri = .ok after) :
    after.rib = c.rib := by
  obtain ⟨other, returned, same⟩ := steerNlri_total snapshot order c nlri
  rw [steered] at returned
  cases returned
  exact same

/-- One round of the loop stores one prefix's weights. -/
theorem stored_steerNlri (steered : steerNlri snapshot order c nlri = .ok after)
    (present : nlri ∈ c.rib.table) (other : Nlri) :
    after.descent.stored other =
      if other = nlri then
        Descent.advance (c.descent.stored nlri) nlri (c.offered nlri) snapshot
      else c.descent.stored other := by
  have stepped := Descent.step_eq (order nlri) c.descent nlri snapshot (offered_ne_nil present)
    (c.length_offered nlri)
  simp only [offered] at stepped
  simp only [steerNlri, stepped, bind, Except.bind] at steered
  cases steered
  rw [descent_settle]
  exact Descent.stored_insert _ nlri other _

/-- Rounds of other prefixes leave a prefix's weights alone, and the table too. -/
theorem frame_steer {nlris : List Nlri}
    (steered : nlris.foldlM (steerNlri snapshot order) c = .ok after)
    (present : ∀ other ∈ nlris, other ∈ c.rib.table) (absent : nlri ∉ nlris) :
    after.descent.stored nlri = c.descent.stored nlri ∧ after.rib = c.rib := by
  induction nlris generalizing c with
  | nil =>
      cases steered
      exact ⟨rfl, rfl⟩
  | cons head rest ih =>
      obtain ⟨next, first, later⟩ := foldlM_cons_ok.mp steered
      obtain ⟨other, elsewhere⟩ := not_or.mp (mt List.mem_cons.mpr absent)
      have sameRib := rib_steerNlri first
      have kept := stored_steerNlri first (present head List.mem_cons_self) nlri
      rw [if_neg other] at kept
      obtain ⟨stored, rib⟩ := ih later
        (fun n member => sameRib ▸ present n (List.mem_cons_of_mem _ member)) elsewhere
      exact ⟨stored.trans kept, rib.trans sameRib⟩

end Tick

/-- The state in which a tick comes to an NLRI: the prefixes before it are done. -/
def AtTurn (c : Controller) (tick : Tick) (nlri : Nlri) (turn : Controller) : Prop :=
  ∃ snapshot front rest, tick.snapshot = some snapshot ∧
    c.rib.nlris tick.nlris = front ++ nlri :: rest ∧
    front.foldlM (steerNlri snapshot tick.weights) c = .ok turn

theorem nlris_nodup (rib : Rib) (order : IterOrder) : (rib.nlris order).Nodup :=
  (order.iterate_perm _).nodup_iff.mpr rib.table.keys_nodup

/-- No prefix has its turn twice, so nothing was written before. -/
theorem AtTurn.frame {c turn : Controller} {tick : Tick} {nlri : Nlri}
    (reached : c.AtTurn tick nlri turn) :
    turn.descent.stored nlri = c.descent.stored nlri ∧ turn.rib = c.rib := by
  obtain ⟨snapshot, front, rest, -, order, ran⟩ := reached
  have once := nlris_nodup c.rib tick.nlris
  rw [order] at once
  refine frame_steer ran (fun other member => ?_) fun member => ?_
  · have listed : other ∈ c.rib.nlris tick.nlris := by
      rw [order]
      exact List.mem_append_left _ member
    exact Rib.mem_nlris.mp listed
  · exact (List.nodup_append.mp once).2.2 nlri member nlri List.mem_cons_self rfl

/-- What a tick stores for an NLRI of the table. -/
theorem stored_tick {c after : Controller} {tick : Tick} {snapshot : TcpRttSnapshot} {nlri : Nlri}
    (taken : tick.snapshot = some snapshot) (stepped : c.step (.tick tick) = .ok after)
    (present : nlri ∈ c.rib.table) :
    after.descent.stored nlri =
      Descent.advance (c.descent.stored nlri) nlri (c.offered nlri) snapshot := by
  have member : nlri ∈ c.rib.nlris tick.nlris := Rib.mem_nlris.mpr present
  obtain ⟨front, rest, order⟩ := List.append_of_mem member
  have listed : ∀ other ∈ c.rib.nlris tick.nlris, other ∈ c.rib.table := fun _ => Rib.mem_nlris.mp
  have once := nlris_nodup c.rib tick.nlris
  simp only [step, steerFib, taken, order, List.foldlM_append] at stepped
  rw [order] at listed once
  cases ran : front.foldlM (steerNlri snapshot tick.weights) c with
  | error panic =>
      rw [ran] at stepped
      cases stepped
  | ok turn =>
      rw [ran] at stepped
      obtain ⟨next, own, later⟩ := foldlM_cons_ok.mp stepped
      have reached : c.AtTurn tick nlri turn := ⟨snapshot, front, rest, taken, order, ran⟩
      obtain ⟨before, sameRib⟩ := reached.frame
      have offered : turn.offered nlri = c.offered nlri := by rw [Controller.offered, sameRib]; rfl
      have here := stored_steerNlri own (sameRib ▸ present) nlri
      rw [if_pos rfl, before, offered] at here
      obtain ⟨absent, -⟩ := List.nodup_cons.mp (List.nodup_append.mp once).2.1
      have after := frame_steer later (fun other member => ?_) absent
      · exact after.1.trans here
      · rw [rib_steerNlri own, sameRib]
        exact listed other (List.mem_append_right _ (List.mem_cons_of_mem _ member))

/-! ## Between two ticks -/

/-- Neither a tick that steers nor an update about the NLRI. -/
def Leaves (nlri : Nlri) (event : Event) : Prop :=
  event.steers = false ∧ nlri ∉ event.nlris

theorem mem_nlris_of_op {event : Event} {op : RouteOp} (h : op ∈ event.ops) :
    op.key.nlri ∈ event.nlris := by
  cases event with
  | tick tick => cases h
  | update received =>
      cases List.mem_append.mp h with
      | inl put =>
          obtain ⟨a, announced, routed⟩ := List.mem_flatMap.mp put
          obtain ⟨route, member, rfl⟩ := List.mem_map.mp routed
          exact List.mem_append_left _
            (List.mem_flatMap.mpr ⟨a, announced, List.mem_map_of_mem member⟩)
      | inr deleted =>
          obtain ⟨route, member, rfl⟩ := List.mem_map.mp deleted
          exact List.mem_append_right _ (List.mem_map_of_mem member)

theorem paths_frame (rib : Rib) {nlri : Nlri} {ops : List RouteOp}
    (elsewhere : ∀ op ∈ ops, op.key.nlri ≠ nlri) :
    (ops.foldl Rib.apply rib).paths nlri = rib.paths nlri := by
  induction ops generalizing rib with
  | nil => rfl
  | cons op rest ih =>
      rw [List.foldl_cons, ih (rib.apply op) fun o member => elsewhere o (List.mem_cons_of_mem _ member),
        Rib.paths_apply, if_neg (elsewhere op List.mem_cons_self)]

theorem descent_step {c after : Controller} {event : Event} (idle : event.steers = false)
    (stepped : c.step event = .ok after) : after.descent = c.descent := by
  cases event with
  | update received =>
      cases stepped
      exact descent_applyUpdate c received
  | tick tick =>
      simp only [Event.steers, Option.isSome_eq_false_iff, Option.isNone_iff_eq_none] at idle
      simp only [step, steerFib, idle] at stepped
      cases stepped
      rfl

theorem frame_between {c after : Controller} {nlri : Nlri} {events : List Event}
    (quiet : ∀ event ∈ events, Leaves nlri event) (ran : events.foldlM step c = .ok after) :
    after.descent = c.descent ∧ after.rib.paths nlri = c.rib.paths nlri := by
  induction events generalizing c with
  | nil =>
      cases ran
      exact ⟨rfl, rfl⟩
  | cons event rest ih =>
      obtain ⟨next, stepped, later⟩ := foldlM_cons_ok.mp ran
      obtain ⟨idle, untouched⟩ := quiet event List.mem_cons_self
      obtain ⟨descent, paths⟩ := ih (fun e member => quiet e (List.mem_cons_of_mem _ member)) later
      refine ⟨descent.trans (descent_step idle stepped), paths.trans ?_⟩
      rw [rib_step stepped]
      exact paths_frame c.rib fun op member same => untouched (same ▸ mem_nlris_of_op member)

/-! ## Two ticks in a row -/

/-- The turn of an NLRI starts from the weights that an earlier tick stored, and
    `reconcile` keeps weights of exactly the nexthops on offer. -/
structure Resumes (stored : Controller) (nlri : Nlri) (turn : Controller) : Prop where
  start : Descent.reconcile (turn.descent.stored nlri) (turn.offered nlri) =
    stored.descent.stored nlri
  kept : (∀ nh, nh ∈ turn.descent.stored nlri ↔ nh ∈ turn.offered nlri) →
    Descent.reconcile (turn.descent.stored nlri) (turn.offered nlri) = turn.descent.stored nlri

/-- Two successful ticks with no update about an NLRI in between. The second starts
    from what the first one stored exactly when the list has no repeats or the first
    one saw no change already. -/
theorem resumes_iff {c after later turn : Controller} {first second : Tick}
    {snapshot : TcpRttSnapshot} {between : List Event} {nlri : Nlri}
    (taken : first.snapshot = some snapshot) (ticked : c.step (.tick first) = .ok after)
    (quiet : ∀ event ∈ between, Leaves nlri event) (ran : between.foldlM step after = .ok later)
    (present : nlri ∈ c.rib.table) (reached : later.AtTurn second nlri turn) :
    Resumes after nlri turn ↔
      (c.offered nlri).Nodup ∨ ¬ Descent.Changed (c.descent.stored nlri) (c.offered nlri) := by
  have afterRib : after.rib = c.rib := rib_step ticked
  obtain ⟨descent, paths⟩ := frame_between quiet ran
  obtain ⟨turned, turnRib⟩ := reached.frame
  have stored : turn.descent.stored nlri = after.descent.stored nlri := by rw [turned, descent]
  have offered : turn.offered nlri = c.offered nlri := by
    rw [Controller.offered, Rib.nexthops, turnRib, paths, afterRib]
    rfl
  have advanced := stored_tick taken ticked present
  constructor
  · intro resumes
    by_contra failed
    obtain ⟨repeats, changed⟩ := not_or.mp failed
    have start := resumes.start
    rw [stored, offered, advanced] at start
    exact Descent.reconcile_advance_of_repeats (offered_ne_nil present) (c.length_offered nlri)
      repeats (not_not.mp changed) start
  · intro condition
    have kept : Descent.reconcile (turn.descent.stored nlri) (turn.offered nlri) =
        after.descent.stored nlri := by
      rw [stored, offered, advanced]
      cases condition with
      | inl distinct => exact Descent.reconcile_advance_of_distinct distinct
      | inr unchanged => exact Descent.reconcile_advance_of_unchanged unchanged
    exact ⟨kept, fun _ => kept.trans stored.symm⟩

section SharedNexthop

private def probedNlri : Nlri := .v4 (.clamped (.new 10 43 0 0) 24)

private def fastHop : Nexthop := .v4 (.new 192 0 2 31)

private def slowHop : Nexthop := .v4 (.new 192 0 2 32)

/-- Windows at 20 ms and at 80 ms. -/
private def probeTick : Tick :=
  ⟨some ⟨(∅ : FiniteMap Nlri _).insert probedNlri
    (((∅ : FiniteMap Nexthop _).insert fastHop ⟨12, 20000, 25000, 18000⟩).insert slowHop
      ⟨9, 80000, 90000, 18000⟩)⟩, .stored, fun _ => .stored⟩

private def announceFast (pathIds : List PathId) : Announcement :=
  ⟨pathIds.map fun pathId => ⟨pathId, probedNlri⟩, fastHop⟩

/-- Some paths to the fast nexthop, one to the slow one. -/
private def pathsTo (fast : List PathId) : Controller :=
  new.applyUpdate ⟨[announceFast fast, ⟨[⟨some 3, probedNlri⟩], slowHop⟩], []⟩

private theorem nlris_pathsTo (fast : List PathId) (h : fast = [some 1] ∨ fast = [some 1, some 2]) :
    (pathsTo fast).rib.nlris .stored = [probedNlri] := by
  cases h with
  | inl one => subst one; decide +kernel
  | inr two => subst two; decide +kernel

private theorem pathsTo_tick (fast : List PathId) (h : fast = [some 1] ∨ fast = [some 1, some 2]) :
    ∃ after, (pathsTo fast).step (.tick probeTick) = .ok after ∧
      after.AtTurn probeTick probedNlri after := by
  obtain ⟨after, ticked⟩ := step_total (pathsTo fast) (.tick probeTick)
  have rib : after.rib = (pathsTo fast).rib := rib_step ticked
  refine ⟨after, ticked, _, [], [], rfl, ?_, rfl⟩
  rw [rib]
  exact nlris_pathsTo fast h

theorem resumes_distinct :
    ∃ after, (pathsTo [some 1]).step (.tick probeTick) = .ok after ∧
      Resumes after probedNlri after := by
  obtain ⟨after, ticked, reached⟩ := pathsTo_tick [some 1] (.inl rfl)
  have distinct : ((pathsTo [some 1]).offered probedNlri).Nodup := by decide +kernel
  have quiet : ∀ event ∈ ([] : List Event), Leaves probedNlri event := by simp
  exact ⟨after, ticked, (resumes_iff rfl ticked quiet rfl (by decide +kernel)
    reached).mpr (.inl distinct)⟩

/-- With a second path to the fast nexthop, every tick starts from equal weights. -/
theorem shared_nexthop_forgets :
    ∃ after, (pathsTo [some 1, some 2]).step (.tick probeTick) = .ok after ∧
      after.AtTurn probeTick probedNlri after ∧ ¬ Resumes after probedNlri after ∧
      (after.descent.stored probedNlri).get? fastHop = some (50245 / 100000) ∧
      (Descent.reconcile (after.descent.stored probedNlri) (after.offered probedNlri)).get? fastHop =
        some (1 / 3) := by
  obtain ⟨after, ticked, reached⟩ := pathsTo_tick [some 1, some 2] (.inr rfl)
  have facts : ((pathsTo [some 1, some 2]).step (.tick probeTick)).toOption.map (fun after =>
      ((after.descent.stored probedNlri).get? fastHop, (Descent.reconcile
        (after.descent.stored probedNlri) (after.offered probedNlri)).get? fastHop)) =
      some (some (50245 / 100000), some (1 / 3)) := by
    decide +kernel
  rw [ticked] at facts
  obtain ⟨stored, start⟩ : (after.descent.stored probedNlri).get? fastHop =
      some (50245 / 100000) ∧ (Descent.reconcile (after.descent.stored probedNlri)
        (after.offered probedNlri)).get? fastHop = some (1 / 3) := by
    simpa only [Except.toOption, Option.map_some, Option.some.injEq, Prod.mk.injEq] using facts
  refine ⟨after, ticked, reached, fun resumes => ?_, stored, start⟩
  rw [resumes.start, stored] at start
  revert start
  decide +kernel

end SharedNexthop

end Controller

end Erez.Daemon
