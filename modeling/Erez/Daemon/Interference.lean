import Erez.Daemon.Agreement
import Erez.Daemon.RouteEvents

/-! # Prefixes do not interfere

A route event reads and writes the paths of its own NLRI and the FIB entry under
the key of that NLRI. As long as the NLRIs of a run have keys of their own, what a
run makes of one of them depends on the events of that NLRI alone, and two runs
that only interleave their NLRIs differently end in the same tables.
-/

namespace Erez.Daemon

open Erez.Lib LastWriter

/-- The events of one NLRI. -/
def onNlri (nlri : Nlri) (ops : List RouteOp) : List RouteOp :=
  ops.filter (·.key.nlri = nlri)

theorem mem_onNlri {nlri : Nlri} {ops : List RouteOp} {op : RouteOp} :
    op ∈ onNlri nlri ops ↔ op ∈ ops ∧ op.key.nlri = nlri := by
  simp [onNlri]

namespace Rib

/-- What an event makes of the paths of its own NLRI. -/
def movePaths (paths : Paths) : RouteOp → Paths
  | .put route nexthop => retainOthers paths route.pathId ++ [(route.pathId, nexthop)]
  | .delete route => retainOthers paths route.pathId

theorem paths_apply (rib : Rib) (op : RouteOp) (nlri : Nlri) :
    (rib.apply op).paths nlri =
      if op.key.nlri = nlri then movePaths (rib.paths nlri) op else rib.paths nlri := by
  cases op with
  | put route nexthop => simp only [apply, paths_insert, Op.key, movePaths, eq_comm]
  | delete route => simp only [apply, paths_remove, Op.key, movePaths, eq_comm]

/-- The paths of an NLRI are the whole of its entry. -/
theorem get?_table (rib : Rib) (nlri : Nlri) :
    rib.table.get? nlri = if rib.paths nlri = [] then none else some (rib.paths nlri) := by
  rw [paths]
  cases found : rib.table.get? nlri with
  | none => rfl
  | some entries => simp [rib.nonempty nlri entries found]

end Rib

namespace Controller

/-- The FIB entry that balancing over the paths of an NLRI leaves behind. -/
def balanced (nlri : Nlri) (paths : Paths) (before : Option CFibEntry) : Option CFibEntry :=
  match balanceEqually (paths.map (·.2)) with
  | .ok (some entry) => some (entry.toC nlri)
  | .ok none => none
  | .error _ => before

theorem get?_updateFib (c : Controller) (nlri : Nlri) (key : List Bool) :
    (c.updateFib nlri).fib.get? key =
      if key = nlri.node then balanced nlri (c.rib.paths nlri) (c.fib.get? key)
      else c.fib.get? key := by
  simp only [updateFib, balanced, Rib.nexthops]
  cases balanceEqually ((c.rib.paths nlri).map (·.2)) with
  | error message => simp [settle]
  | ok entry =>
      cases entry with
      | none => exact get?_settle_delete c nlri key
      | some entry => exact get?_settle_insert c nlri entry key

/-- A route event writes the FIB where its NLRI has its key. -/
theorem get?_applyRoute (c : Controller) (op : RouteOp) (key : List Bool) :
    (c.applyRoute op).fib.get? key =
      if key = op.key.nlri.node then
        balanced op.key.nlri ((c.rib.apply op).paths op.key.nlri) (c.fib.get? key)
      else c.fib.get? key := by
  cases op with
  | put route nexthop => exact get?_updateFib _ route.nlri key
  | delete route => exact get?_updateFib _ route.nlri key

/-- All that the controller keeps about one NLRI. -/
def cell (nlri : Nlri) (c : Controller) : Paths × Option CFibEntry :=
  (c.rib.paths nlri, c.fib.get? nlri.node)

def moveCell (nlri : Nlri) (cell : Paths × Option CFibEntry) (op : RouteOp) :
    Paths × Option CFibEntry :=
  let paths := Rib.movePaths cell.1 op
  (paths, balanced nlri paths cell.2)

theorem cell_own (c : Controller) {op : RouteOp} {nlri : Nlri} (own : op.key.nlri = nlri) :
    cell nlri (c.applyRoute op) = moveCell nlri (cell nlri c) op := by
  subst own
  have paths : (c.rib.apply op).paths op.key.nlri = Rib.movePaths (c.rib.paths op.key.nlri) op := by
    rw [Rib.paths_apply, if_pos rfl]
  simp only [cell, moveCell, rib_applyRoute, get?_applyRoute, paths, if_true]

theorem cell_other (c : Controller) {op : RouteOp} {nlri : Nlri} (other : op.key.nlri ≠ nlri)
    (apart : nlri.node ≠ op.key.nlri.node) : cell nlri (c.applyRoute op) = cell nlri c := by
  simp only [cell, rib_applyRoute, get?_applyRoute, Rib.paths_apply, if_neg other, if_neg apart]

section Run

variable {ops : List RouteOp}

/-- The NLRIs that a sequence of route events is about. -/
def touched (ops : List RouteOp) : Set Nlri :=
  {nlri | ∃ op ∈ ops, op.key.nlri = nlri}

/-- What a run makes of an NLRI, its own events make of it. -/
theorem cell_run (c : Controller) (keys : (touched ops).InjOn IpNet.node) {nlri : Nlri}
    (member : nlri ∈ touched ops) :
    cell nlri (ops.foldl applyRoute c) = (onNlri nlri ops).foldl (moveCell nlri) (cell nlri c) := by
  apply foldl_frame
  · intro c op _ own
    exact cell_own c (by simpa using own)
  · intro c op present notOwn
    have other : op.key.nlri ≠ nlri := by simpa using notOwn
    refine cell_other c other fun same => other ?_
    exact (keys member ⟨op, present, rfl⟩ same).symm

theorem paths_run (c : Controller) (nlri : Nlri) :
    (ops.foldl applyRoute c).rib.paths nlri =
      (onNlri nlri ops).foldl Rib.movePaths (c.rib.paths nlri) := by
  let view (c : Controller) := c.rib.paths nlri
  change view _ = _
  apply foldl_frame
  · intro c op _ own
    simpa only [view, rib_applyRoute, Rib.paths_apply] using if_pos (by simpa using own)
  · intro c op _ notOwn
    simpa only [view, rib_applyRoute, Rib.paths_apply] using if_neg (by simpa using notOwn)

/-- A key that no event has keeps its entry. -/
theorem get?_run_untouched (c : Controller) {key : List Bool}
    (untouched : ∀ nlri ∈ touched ops, key ≠ nlri.node) :
    (ops.foldl applyRoute c).fib.get? key = c.fib.get? key := by
  induction ops generalizing c with
  | nil => rfl
  | cons op rest ih =>
      have later := ih (c.applyRoute op) fun nlri ⟨other, member, same⟩ =>
        untouched nlri ⟨other, List.mem_cons_of_mem op member, same⟩
      have apart := untouched op.key.nlri ⟨op, List.mem_cons_self, rfl⟩
      rw [List.foldl_cons, later, get?_applyRoute, if_neg apart]

end Run

theorem foldl_applyUpdate (c : Controller) (updates : List Update) :
    updates.foldl applyUpdate c = (updates.flatMap Update.ops).foldl applyRoute c := by
  rw [List.foldl_flatMap]
  congr 1
  funext c update
  exact applyUpdate_eq c update

/-- Two sequences of updates with the same events for every NLRI end in the same
    RIB and the same FIB, however they interleave the NLRIs. -/
theorem same_tables_of_same_events (c : Controller) (updates updates' : List Update)
    (same : ∀ nlri, onNlri nlri (updates.flatMap Update.ops) =
      onNlri nlri (updates'.flatMap Update.ops))
    (keys : (touched (updates.flatMap Update.ops)).InjOn IpNet.node) :
    (∀ nlri, (updates.foldl applyUpdate c).rib.table.get? nlri =
      (updates'.foldl applyUpdate c).rib.table.get? nlri) ∧
    ∀ key, (updates.foldl applyUpdate c).fib.get? key =
      (updates'.foldl applyUpdate c).fib.get? key := by
  simp only [foldl_applyUpdate]
  set ops := updates.flatMap Update.ops
  set ops' := updates'.flatMap Update.ops
  have sameTouched : touched ops' = touched ops := by
    ext nlri
    have members : (∃ op, op ∈ onNlri nlri ops') ↔ ∃ op, op ∈ onNlri nlri ops := by
      rw [same nlri]
    simpa only [mem_onNlri, touched, Set.mem_ofPred_eq] using members
  constructor
  · intro nlri
    rw [Rib.get?_table, Rib.get?_table, paths_run, paths_run, same]
  · intro key
    by_cases own : ∃ nlri ∈ touched ops, key = nlri.node
    · obtain ⟨nlri, member, rfl⟩ := own
      have cells : cell nlri (ops.foldl applyRoute c) = cell nlri (ops'.foldl applyRoute c) := by
        rw [cell_run c keys member, cell_run c (sameTouched ▸ keys) (sameTouched ▸ member), same]
      exact congrArg Prod.snd cells
    · push Not at own
      rw [get?_run_untouched c own, get?_run_untouched c (sameTouched ▸ own)]

section Swapped

private def office : Route := ⟨none, .v4 (.clamped (.new 10 41 0 0) 24)⟩

private def campus : Route := ⟨none, .v4 (.clamped (.new 10 42 0 0) 16)⟩

private def announceTo (route : Route) (host : UInt8) : Update :=
  ⟨[⟨[route], .v4 (.new 192 0 2 host)⟩], []⟩

/-- A prefix that is announced and moved, around another that is announced. -/
theorem same_tables_of_swapped :
    (∀ nlri, ([announceTo office 1, announceTo campus 2, announceTo office 3].foldl applyUpdate
        new).rib.table.get? nlri =
      ([announceTo office 1, announceTo office 3, announceTo campus 2].foldl applyUpdate
        new).rib.table.get? nlri) ∧
    ∀ key, ([announceTo office 1, announceTo campus 2, announceTo office 3].foldl applyUpdate
        new).fib.get? key =
      ([announceTo office 1, announceTo office 3, announceTo campus 2].foldl applyUpdate
        new).fib.get? key := by
  apply same_tables_of_same_events
  · intro nlri
    have apart : office.nlri ≠ campus.nlri := by decide
    by_cases here : office.nlri = nlri
    · have elsewhere : campus.nlri ≠ nlri := here ▸ apart.symm
      simp [onNlri, announceTo, Update.ops, Op.key, here, elsewhere]
    · by_cases there : campus.nlri = nlri
      · simp [onNlri, announceTo, Update.ops, Op.key, here, there]
      · simp [onNlri, announceTo, Update.ops, Op.key, here, there]
  · have only : ∀ nlri ∈ touched ([announceTo office 1, announceTo campus 2,
        announceTo office 3].flatMap Update.ops), nlri = office.nlri ∨ nlri = campus.nlri := by
      rintro nlri ⟨op, member, same⟩
      subst same
      simp only [announceTo, Update.ops, List.flatMap_cons, List.flatMap_nil, List.map_cons,
        List.map_nil, List.append_nil, List.cons_append, List.nil_append, List.mem_cons,
        List.not_mem_nil, or_false] at member
      rcases member with rfl | rfl | rfl <;> simp [Op.key]
    intro a ha b hb same
    have apart : office.nlri.node ≠ campus.nlri.node := by decide
    rcases only a ha with rfl | rfl <;> rcases only b hb with rfl | rfl
    · rfl
    · exact absurd same apart
    · exact absurd same.symm apart
    · rfl

end Swapped

end Controller

end Erez.Daemon
