import Erez.Daemon.RouteEvents

/-! # The routing table as the log of its operations

From the empty table, the paths of an NLRI are the inserts on it that no later
operation on the same route replaced or removed, in the order they were made.
Membership, the NLRIs listed and the order of the nexthops all follow. An update
is such a log too, with its withdrawals after its announcements, so a route on
both of its lists ends up withdrawn.
-/

namespace Erez.Daemon

open Erez.Lib LastWriter

/-- The entry that a put leaves in the list of its NLRI. -/
private def entryOf (put : Route × Nexthop) : PathId × Nexthop :=
  (put.1.pathId, put.2)

/-- On the routes of one NLRI, to drop a route is to drop its path id. -/
private theorem retainOthers_entries (puts : List (Route × Nexthop)) (route : Route) :
    Rib.retainOthers ((puts.filter (·.1.nlri = route.nlri)).map entryOf) route.pathId =
      ((puts.filter (·.1 ≠ route)).filter (·.1.nlri = route.nlri)).map entryOf := by
  rw [Rib.retainOthers, List.filter_map, List.filter_filter, List.filter_filter]
  congr 1
  refine List.filter_congr fun put _ => ?_
  obtain ⟨⟨pathId, nlri⟩, nexthop⟩ := put
  obtain ⟨droppedId, dropped⟩ := route
  by_cases here : nlri = dropped
  · by_cases same : pathId = droppedId <;> simp [entryOf, here, same]
  · simp [here]

/-- Dropping a route leaves the entries of other NLRIs alone. -/
private theorem entries_elsewhere (puts : List (Route × Nexthop)) {route : Route} {nlri : Nlri}
    (h : nlri ≠ route.nlri) :
    (puts.filter (·.1 ≠ route)).filter (·.1.nlri = nlri) = puts.filter (·.1.nlri = nlri) := by
  rw [List.filter_filter]
  refine List.filter_congr fun put _ => ?_
  by_cases here : put.1.nlri = nlri
  · have other : put.1 ≠ route := fun same => h (here ▸ same ▸ rfl)
    simp [here, other]
  · simp [here]

namespace Rib

/-- The paths of an NLRI are the puts on it that stand. -/
theorem paths_foldl (ops : List RouteOp) (nlri : Nlri) :
    (ops.foldl apply default).paths nlri =
      ((latestPuts ops).filter (·.1.nlri = nlri)).map fun put => (put.1.pathId, put.2) := by
  change _ = ((latestPuts ops).filter (·.1.nlri = nlri)).map entryOf
  induction ops using List.reverseRecOn generalizing nlri with
  | nil => simp [latestPuts, paths_default]
  | append_singleton ops op ih =>
      rw [List.foldl_concat]
      cases op with
      | put route nexthop =>
          rw [apply, paths_insert, ih, latestPuts_put, List.filter_append, List.map_append]
          split
          · rename_i here
            subst here
            rw [retainOthers_entries]
            simp [entryOf]
          · rename_i elsewhere
            rw [entries_elsewhere _ elsewhere]
            simp [Ne.symm elsewhere]
      | delete route =>
          rw [apply, paths_remove, ih, latestPuts_delete]
          split
          · rename_i here
            subst here
            rw [retainOthers_entries]
          · rename_i elsewhere
            rw [entries_elsewhere _ elsewhere]

/-- An entry is in the list exactly if the last operation on its route put it there. -/
theorem mem_paths_foldl {ops : List RouteOp} {nlri : Nlri} {pathId : PathId} {nh : Nexthop} :
    (pathId, nh) ∈ (ops.foldl apply default).paths nlri ↔
      (on ⟨pathId, nlri⟩ ops).getLast? = some (.put ⟨pathId, nlri⟩ nh) := by
  rw [← mem_latestPuts, paths_foldl]
  constructor
  · intro member
    obtain ⟨⟨⟨id, at_⟩, put⟩, stands, same⟩ := List.mem_map.mp member
    cases same
    obtain ⟨here, onNlri⟩ := List.mem_filter.mp stands
    obtain rfl : at_ = nlri := by simpa using onNlri
    exact here
  · intro stands
    have onNlri : (⟨pathId, nlri⟩, nh) ∈ (latestPuts ops).filter (·.1.nlri = nlri) := by
      simpa using stands
    exact List.mem_map_of_mem onNlri

/-- The table of any sequence of operations from the empty one is the
    last-writer-wins map of the sequence, each list in order of latest insertion. -/
theorem refines_last_writer (ops : List RouteOp) (order : IterOrder) :
    (∀ nlri paths, (ops.foldl apply default).table.get? nlri = some paths →
      (paths.map (·.1)).Nodup ∧ paths ≠ []) ∧
    (∀ nlri pathId nh, (pathId, nh) ∈ (ops.foldl apply default).paths nlri ↔
      (on ⟨pathId, nlri⟩ ops).getLast? = some (.put ⟨pathId, nlri⟩ nh)) ∧
    ((ops.foldl apply default).nlris order).Nodup ∧
    (∀ nlri, nlri ∈ (ops.foldl apply default).nlris order ↔
      ∃ pathId nh, (on ⟨pathId, nlri⟩ ops).getLast? = some (.put ⟨pathId, nlri⟩ nh)) ∧
    (∀ nlri, (ops.foldl apply default).nexthops nlri =
      ((latestPuts ops).filter (·.1.nlri = nlri)).map (·.2)) := by
  set rib := ops.foldl apply default with built
  refine ⟨fun nlri paths found => ⟨rib.distinct nlri paths found, rib.nonempty nlri paths found⟩,
    fun nlri pathId nh => mem_paths_foldl, ?_, fun nlri => ?_, fun nlri => ?_⟩
  · exact ((order.iterate_perm _).nodup_iff).mpr rib.table.keys_nodup
  · rw [mem_nlris, mem_table_iff]
    constructor
    · intro live
      obtain ⟨⟨pathId, nh⟩, member⟩ := List.exists_mem_of_ne_nil _ live
      exact ⟨pathId, nh, mem_paths_foldl.mp member⟩
    · intro ⟨pathId, nh, last⟩
      exact List.ne_nil_of_mem (mem_paths_foldl.mpr last)
  · rw [nexthops, built, paths_foldl, List.map_map]
    rfl

end Rib

/-! ## Updates that announce and withdraw -/

namespace Update

/-- The nexthop of a route's last announcement. -/
def lastAnnounced (update : Update) (route : Route) : Option Nexthop :=
  ((update.announced.filter (·.1 = route)).getLast?).map (·.2)

theorem ops_eq (update : Update) :
    update.ops = (update.announced.map fun e => .put e.1 e.2) ++ update.withdrawals.map .delete := by
  simp [ops, announced, List.map_flatMap, Function.comp_def]

/-- What the announcements alone make of a route. -/
private theorem final_announced (update : Update) (m : Route → Option Nexthop) (route : Route) :
    final (update.announced.map fun e => .put e.1 e.2) m route =
      ((update.lastAnnounced route).map some).getD (m route) := by
  have onRoute : on route (update.announced.map fun e => .put e.1 e.2) =
      (update.announced.filter (·.1 = route)).map fun e => .put e.1 e.2 := List.filter_map
  rw [final_eq_last, onRoute, lastAnnounced, List.getLast?_map]
  cases (update.announced.filter (·.1 = route)).getLast? with
  | none => rfl
  | some last => rfl

theorem lastAnnounced_isSome {update : Update} {route : Route} :
    (update.lastAnnounced route).isSome ↔ ∃ a ∈ update.announcements, route ∈ a.routes := by
  simp [lastAnnounced, announced, Option.isSome_map]

end Update

namespace Controller

/-- A withdrawal undoes an announcement of the same update. -/
theorem nexthop?_applyUpdate (c : Controller) (update : Update) (route : Route) :
    (c.applyUpdate update).rib.nexthop? route =
      if route ∈ update.withdrawals then none
      else ((update.lastAnnounced route).map some).getD (c.rib.nexthop? route) := by
  rw [rib_applyUpdate, Rib.nexthop?_foldl, Update.ops_eq, final_append]
  split
  · rename_i withdrawn
    exact final_deletes withdrawn _
  · rename_i kept
    rw [final_of_untouched, Update.final_announced]
    intro op member same
    obtain ⟨other, withdrawn, rfl⟩ := List.mem_map.mp member
    exact kept (same ▸ withdrawn)

/-- An update leaves what it announces in the table, under the nexthop of the
    last announcement, and none of what it only withdraws. -/
def AnnouncementsStand (c : Controller) (update : Update) : Prop :=
  (∀ route nh, update.lastAnnounced route = some nh →
    (c.applyUpdate update).rib.nexthop? route = some nh) ∧
  ∀ route ∈ update.withdrawals, update.lastAnnounced route = none →
    (c.applyUpdate update).rib.nexthop? route = none

theorem announcementsStand_iff (c : Controller) (update : Update) :
    c.AnnouncementsStand update ↔
      ∀ route ∈ update.withdrawals, ∀ a ∈ update.announcements, route ∉ a.routes := by
  constructor
  · intro ⟨stand, _⟩ route withdrawn a member announced
    have some := Update.lastAnnounced_isSome.mpr ⟨a, member, announced⟩
    obtain ⟨nh, last⟩ := Option.isSome_iff_exists.mp some
    have held := stand route nh last
    rw [nexthop?_applyUpdate, if_pos withdrawn] at held
    cases held
  · intro apart
    refine ⟨fun route nh last => ?_, fun route withdrawn _ => ?_⟩
    · have kept : route ∉ update.withdrawals := by
        intro withdrawn
        have some : (update.lastAnnounced route).isSome := by simp [last]
        obtain ⟨a, member, announced⟩ := Update.lastAnnounced_isSome.mp some
        exact apart route withdrawn a member announced
      rw [nexthop?_applyUpdate, if_neg kept, last]
      rfl
    · rw [nexthop?_applyUpdate, if_pos withdrawn]

private def replacedPath : Route where
  pathId := some 1
  nlri := .v4 (Ipv4Net.clamped (Ipv4Addr.new 10 41 0 0) 24)

/-- A path that is withdrawn and announced anew in one message is lost. -/
theorem replacement_lost :
    ¬ Controller.new.AnnouncementsStand
      { announcements := [⟨[replacedPath], .v4 (Ipv4Addr.new 192 0 2 1)⟩]
        withdrawals := [replacedPath] } := by
  intro ⟨stand, _⟩
  have held := stand replacedPath (.v4 (Ipv4Addr.new 192 0 2 1)) (by decide)
  rw [nexthop?_applyUpdate, if_pos List.mem_cons_self] at held
  cases held

end Controller

end Erez.Daemon
