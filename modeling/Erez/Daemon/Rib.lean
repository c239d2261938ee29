import Erez.Daemon.Abi

/-! # The routing table

Active BGP nexthops keyed by NLRI. Under Add-Path an NLRI has one entry per path
id, in order of latest insertion. The table never keeps an NLRI without paths
and never holds two entries with one path id; both facts travel with the `Rib`.
-/

namespace Erez.Daemon

open Erez.Lib

abbrev Nexthop := IpAddr

abbrev Nlri := IpNet

abbrev PathId := Option UInt32

structure Route where
  pathId : PathId
  nlri : Nlri
  deriving DecidableEq

structure Announcement where
  routes : List Route
  nexthop : Nexthop
  deriving DecidableEq

/-- One BGP update: MP-BGP may announce several nexthops, withdrawals have none. -/
structure Update where
  announcements : List Announcement
  withdrawals : List Route
  deriving DecidableEq

/-- The routes an update announces with their nexthops, in order. -/
def Update.announced (update : Update) : List (Route × Nexthop) :=
  update.announcements.flatMap fun a => a.routes.map fun route => (route, a.nexthop)

abbrev Paths := List (PathId × Nexthop)

structure Rib where
  table : FiniteMap Nlri Paths
  nonempty : ∀ nlri paths, table.get? nlri = some paths → paths ≠ []
  distinct : ∀ nlri paths, table.get? nlri = some paths → (paths.map (·.1)).Nodup

namespace Rib

def default : Rib where
  table := ∅
  nonempty := by simp
  distinct := by simp

/-- The paths of an NLRI; none when it is not in the table. -/
def paths (rib : Rib) (nlri : Nlri) : Paths :=
  (rib.table.get? nlri).getD []

theorem paths_nodup (rib : Rib) (nlri : Nlri) : ((rib.paths nlri).map (·.1)).Nodup := by
  unfold paths
  cases found : rib.table.get? nlri with
  | none => simp
  | some paths => exact rib.distinct nlri paths found

/-- Drop the entry of one path id. -/
def retainOthers (paths : Paths) (pathId : PathId) : Paths :=
  paths.filter fun path => path.1 ≠ pathId

theorem retainOthers_nodup {paths : Paths} (h : (paths.map (·.1)).Nodup) (pathId : PathId) :
    ((retainOthers paths pathId).map (·.1)).Nodup :=
  h.sublist (List.filter_sublist.map _)

theorem mem_retainOthers {paths : Paths} {pathId : PathId} {path : PathId × Nexthop} :
    path ∈ retainOthers paths pathId ↔ path ∈ paths ∧ path.1 ≠ pathId := by
  simp [retainOthers]

private theorem replaced_nodup {paths : Paths} (h : (paths.map (·.1)).Nodup) (pathId : PathId)
    (nexthop : Nexthop) : ((retainOthers paths pathId ++ [(pathId, nexthop)]).map (·.1)).Nodup := by
  have absent : pathId ∉ (retainOthers paths pathId).map (·.1) := by
    intro member
    obtain ⟨path, hp, same⟩ := List.mem_map.mp member
    exact (mem_retainOthers.mp hp).2 same
  rw [List.map_append, List.nodup_append]
  refine ⟨retainOthers_nodup h pathId, by simp, ?_⟩
  rintro id member other hother rfl
  have here : id = pathId := by simpa using hother
  exact absent (here ▸ member)

def insert (rib : Rib) (route : Route) (nexthop : Nexthop) : Rib where
  table := rib.table.insert route.nlri
    (retainOthers (rib.paths route.nlri) route.pathId ++ [(route.pathId, nexthop)])
  nonempty := by
    intro nlri paths found
    rw [FiniteMap.get?_insert] at found
    split at found
    · cases found
      simp
    · exact rib.nonempty nlri paths found
  distinct := by
    intro nlri paths found
    rw [FiniteMap.get?_insert] at found
    split at found
    · cases found
      exact replaced_nodup (rib.paths_nodup route.nlri) _ _
    · exact rib.distinct nlri paths found

/-- What `remove` leaves of the table: an NLRI whose last path goes is dropped. -/
def removeTable (rib : Rib) (route : Route) : FiniteMap Nlri Paths :=
  match rib.table.get? route.nlri with
  | none => rib.table
  | some entries =>
      let kept := retainOthers entries route.pathId
      if kept = [] then rib.table.erase route.nlri else rib.table.insert route.nlri kept

theorem get?_removeTable (rib : Rib) (route : Route) (nlri : Nlri) :
    (rib.removeTable route).get? nlri =
      if nlri = route.nlri then
        match rib.table.get? nlri with
        | none => none
        | some entries =>
            if retainOthers entries route.pathId = [] then none
            else some (retainOthers entries route.pathId)
      else rib.table.get? nlri := by
  unfold removeTable
  by_cases here : nlri = route.nlri
  · subst here
    cases found : rib.table.get? route.nlri with
    | none => simp [found]
    | some entries =>
        by_cases gone : retainOthers entries route.pathId = []
        · simp [gone, FiniteMap.get?_erase]
        · simp [gone]
  · cases rib.table.get? route.nlri with
    | none => simp [here]
    | some entries =>
        by_cases gone : retainOthers entries route.pathId = []
        · simp [gone, FiniteMap.get?_erase, here]
        · simp [gone, FiniteMap.get?_insert, here]

def remove (rib : Rib) (route : Route) : Rib where
  table := rib.removeTable route
  nonempty := by
    intro nlri paths found
    rw [get?_removeTable] at found
    split at found
    · split at found
      · simp at found
      · split at found
        · simp at found
        · rename_i kept
          cases found
          exact kept
    · exact rib.nonempty nlri paths found
  distinct := by
    intro nlri paths found
    rw [get?_removeTable] at found
    split at found
    · split at found
      · simp at found
      · rename_i entries before
        split at found
        · simp at found
        · cases found
          exact retainOthers_nodup (rib.distinct nlri entries before) _
    · exact rib.distinct nlri paths found

/-- The NLRIs of the table, in the order the hash map iterates them. -/
def nlris (rib : Rib) (order : IterOrder) : List Nlri :=
  order.iterate rib.table.keys

def nexthops (rib : Rib) (nlri : Nlri) : List Nexthop :=
  (rib.paths nlri).map (·.2)

/-! ## What the operations do to the paths of an NLRI -/

theorem mem_table_iff {rib : Rib} {nlri : Nlri} : nlri ∈ rib.table ↔ rib.paths nlri ≠ [] := by
  rw [← FiniteMap.isSome_get?, paths]
  cases found : rib.table.get? nlri with
  | none => simp
  | some entries => simpa using rib.nonempty nlri entries found

theorem mem_nlris {rib : Rib} {order : IterOrder} {nlri : Nlri} :
    nlri ∈ rib.nlris order ↔ nlri ∈ rib.table := by
  rw [nlris, (order.iterate_perm _).mem_iff, AList.mem_keys]

theorem paths_default (nlri : Nlri) : default.paths nlri = [] := by
  simp [paths, default]

theorem paths_insert (rib : Rib) (route : Route) (nexthop : Nexthop) (nlri : Nlri) :
    (rib.insert route nexthop).paths nlri =
      if nlri = route.nlri then
        retainOthers (rib.paths nlri) route.pathId ++ [(route.pathId, nexthop)]
      else rib.paths nlri := by
  unfold paths insert
  simp only [FiniteMap.get?_insert]
  split
  · rename_i here
    subst here
    rfl
  · rfl

theorem paths_remove (rib : Rib) (route : Route) (nlri : Nlri) :
    (rib.remove route).paths nlri =
      if nlri = route.nlri then retainOthers (rib.paths nlri) route.pathId
      else rib.paths nlri := by
  have table : (rib.remove route).table = rib.removeTable route := rfl
  rw [paths, table, get?_removeTable]
  split
  · rw [paths]
    cases rib.table.get? nlri with
    | none => simp [retainOthers]
    | some entries =>
        by_cases gone : retainOthers entries route.pathId = [] <;> simp [gone]
  · rfl

end Rib

end Erez.Daemon
