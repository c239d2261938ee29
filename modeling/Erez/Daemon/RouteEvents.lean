import Erez.Daemon.Controller
import Erez.Lib.LastWriter

/-! # The RIB as a map of routes

Seen from outside, the table maps each NLRI and path id to a nexthop. `insert`
and `remove` are a put and a delete of that map, and an update message is a
sequence of them, announcements first. The controller applies the sequence as it
stands; ticks do not touch the table.
-/

namespace Erez.Daemon

open Erez.Lib LastWriter

abbrev RouteOp := Op Route Nexthop

namespace Rib

/-- The nexthop of a path. -/
def nexthop? (rib : Rib) (route : Route) : Option Nexthop :=
  ((rib.paths route.nlri).find? (·.1 = route.pathId)).map (·.2)

theorem nexthop?_eq_some {rib : Rib} {route : Route} {nh : Nexthop} :
    rib.nexthop? route = some nh ↔ (route.pathId, nh) ∈ rib.paths route.nlri := by
  have distinct := rib.paths_nodup route.nlri
  rw [nexthop?]
  generalize rib.paths route.nlri = paths at distinct
  induction paths with
  | nil => simp
  | cons path rest ih =>
      obtain ⟨absent, restDistinct⟩ := List.nodup_cons.mp (List.map_cons ▸ distinct)
      obtain ⟨pathId, other⟩ := path
      by_cases here : pathId = route.pathId
      · subst here
        have later : (route.pathId, nh) ∉ rest := fun member =>
          absent (List.mem_map_of_mem (f := (·.1)) member)
        simp [later, eq_comm]
      · simp [here, Ne.symm here, ih restDistinct]

/-- The paths offer the nexthop of every route the map has. -/
theorem mem_nexthops {rib : Rib} {route : Route} {nh : Nexthop}
    (h : rib.nexthop? route = some nh) : nh ∈ rib.nexthops route.nlri :=
  List.mem_map_of_mem (nexthop?_eq_some.mp h)

def apply (rib : Rib) : RouteOp → Rib
  | .put route nexthop => rib.insert route nexthop
  | .delete route => rib.remove route

private theorem find?_retainOthers {paths : Paths} {dropped pathId : PathId} :
    (retainOthers paths dropped).find? (·.1 = pathId) =
      if pathId = dropped then none else paths.find? (·.1 = pathId) := by
  rw [retainOthers, List.find?_filter]
  split
  · rename_i here
    subst here
    simp
  · rename_i elsewhere
    congr 1
    funext path
    by_cases same : path.1 = pathId <;> simp [same, elsewhere]

private theorem pathId_ne {route other : Route} (h : other ≠ route) (same : route.nlri = other.nlri) :
    other.pathId ≠ route.pathId := by
  obtain ⟨otherPath, otherNlri⟩ := other
  obtain ⟨path, nlri⟩ := route
  rintro rfl
  cases same
  exact h rfl

theorem nexthop?_apply (rib : Rib) (op : RouteOp) :
    (rib.apply op).nexthop? = op.apply rib.nexthop? := by
  funext route
  by_cases here : op.key = route
  · subst here
    rw [Op.apply_self]
    cases op with
    | put route nexthop =>
        change (rib.insert route nexthop).nexthop? route = some nexthop
        rw [nexthop?, paths_insert, if_pos rfl, List.find?_append, find?_retainOthers, if_pos rfl]
        simp
    | delete route =>
        change (rib.remove route).nexthop? route = none
        rw [nexthop?, paths_remove, if_pos rfl, find?_retainOthers, if_pos rfl]
        rfl
  · rw [Op.apply_of_ne here]
    cases op with
    | put other nexthop =>
        simp only [apply, nexthop?, paths_insert, Op.key] at here ⊢
        split
        · rename_i sameNlri
          have otherPath := pathId_ne here sameNlri
          simp [List.find?_append, find?_retainOthers, otherPath, otherPath.symm]
        · rfl
    | delete other =>
        simp only [apply, nexthop?, paths_remove, Op.key] at here ⊢
        split
        · rename_i sameNlri
          have otherPath := pathId_ne here sameNlri
          simp [find?_retainOthers, otherPath.symm]
        · rfl

/-- The table refines the last-writer-wins map of its operations. -/
theorem nexthop?_foldl (rib : Rib) (ops : List RouteOp) :
    (ops.foldl apply rib).nexthop? = final ops rib.nexthop? := by
  induction ops generalizing rib with
  | nil => rfl
  | cons op rest ih =>
      rw [List.foldl_cons, ih, nexthop?_apply]
      rfl

theorem nexthop?_default : default.nexthop? = fun _ => none := by
  funext route
  simp [nexthop?, paths_default]

end Rib

/-- What an update does to the table, in the order the controller does it. -/
def Update.ops (update : Update) : List RouteOp :=
  (update.announcements.flatMap fun a => a.routes.map fun route => .put route a.nexthop) ++
    update.withdrawals.map .delete

def Event.ops : Event → List RouteOp
  | .update received => received.ops
  | .tick _ => []

namespace Controller

/-- One route event, as the controller handles it. -/
def applyRoute (c : Controller) : RouteOp → Controller
  | .put route nexthop => c.announce nexthop route
  | .delete route => c.withdraw route

theorem applyUpdate_eq (c : Controller) (update : Update) :
    c.applyUpdate update = update.ops.foldl applyRoute c := by
  simp only [applyUpdate, Update.ops, List.foldl_append, List.foldl_flatMap, List.foldl_map]
  rfl

theorem rib_applyRoute (c : Controller) (op : RouteOp) : (c.applyRoute op).rib = c.rib.apply op := by
  cases op with
  | put route nexthop => exact rib_settle _ _
  | delete route => exact rib_settle _ _

theorem rib_applyUpdate (c : Controller) (update : Update) :
    (c.applyUpdate update).rib = update.ops.foldl Rib.apply c.rib := by
  rw [applyUpdate_eq]
  exact (List.foldl_hom rib fun c op => (c.rib_applyRoute op).symm).symm

theorem rib_step {c after : Controller} {event : Event} (h : c.step event = .ok after) :
    after.rib = event.ops.foldl Rib.apply c.rib := by
  cases event with
  | update received =>
      obtain rfl := Except.ok.inj h
      exact rib_applyUpdate c received
  | tick tick =>
      obtain ⟨steered, returned, same⟩ := c.steerFib_total tick
      obtain rfl : steered = after := Except.ok.inj (returned.symm.trans h)
      exact same

/-- The table after a run: the routes of its updates, put and deleted in order. -/
theorem rib_run {c after : Controller} {events : List Event}
    (h : events.foldlM step c = .ok after) :
    after.rib = (events.flatMap Event.ops).foldl Rib.apply c.rib := by
  induction events generalizing c with
  | nil =>
      obtain rfl := Except.ok.inj h
      rfl
  | cons event rest ih =>
      obtain ⟨next, stepped, later⟩ := foldlM_cons_ok.mp h
      rw [ih later, rib_step stepped, List.flatMap_cons, List.foldl_append]

/-- Every run from the empty state succeeds, and its table is the map that its
    updates write. -/
theorem nexthop?_run (events : List Event) :
    ∃ after, events.foldlM step new = .ok after ∧
      after.rib.nexthop? = final (events.flatMap Event.ops) fun _ => none := by
  obtain ⟨after, ran⟩ := foldlM_total step_total new events
  refine ⟨after, ran, ?_⟩
  rw [rib_run ran, Rib.nexthop?_foldl]
  exact congrArg _ Rib.nexthop?_default

end Controller

end Erez.Daemon
