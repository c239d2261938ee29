import Erez.Daemon.RouteEvents

/-! # Several peers, one table

Every peer has a task of its own that feeds the same controller, and an update
does not say who sent it. The table is keyed by NLRI and path id alone, so a path
of one peer is safe from the others exactly as far as they use other keys.
-/

namespace Erez.Daemon

open Erez.Lib LastWriter

/-- What reaches the controller's loop, with the sender that the loop does not see. -/
inductive Delivery (Peer : Type*) where
  | update (peer : Peer) (update : Update)
  | tick (tick : Tick)

namespace Delivery

variable {Peer : Type*}

def event : Delivery Peer → Event
  | .update _ received => .update received
  | .tick met => .tick met

/-- The route operations of a delivery, with their sender. -/
def opsBy : Delivery Peer → List (Peer × RouteOp)
  | .update peer received => received.ops.map fun op => (peer, op)
  | .tick _ => []

theorem ops_event (delivery : Delivery Peer) : delivery.event.ops = delivery.opsBy.map (·.2) := by
  cases delivery with
  | update peer received => simp [event, Event.ops, opsBy]
  | tick tick => rfl

variable [DecidableEq Peer]

/-- The operations of one peer, in the order it sent them. -/
def own (peer : Peer) (deliveries : List (Delivery Peer)) : List RouteOp :=
  ((deliveries.flatMap opsBy).filter (·.1 = peer)).map (·.2)

/-- A peer's live paths: the table its own updates describe. -/
def live (peer : Peer) (deliveries : List (Delivery Peer)) : Route → Option Nexthop :=
  final (own peer deliveries) fun _ => none

/-- Nobody but `peer` announces or withdraws the route. -/
def Unshared (peer : Peer) (route : Route) (deliveries : List (Delivery Peer)) : Prop :=
  ∀ delivery ∈ deliveries, ∀ sent ∈ delivery.opsBy, sent.1 ≠ peer → sent.2.key ≠ route

theorem on_own {peer : Peer} {route : Route} {deliveries : List (Delivery Peer)}
    (h : Unshared peer route deliveries) :
    on route (own peer deliveries) = on route (deliveries.flatMap fun d => d.event.ops) := by
  have all : (deliveries.flatMap fun d => d.event.ops) =
      (deliveries.flatMap opsBy).map (·.2) := by
    rw [List.map_flatMap]
    exact congrArg (deliveries.flatMap ·) (funext ops_event)
  rw [all, own, on, on, List.filter_map, List.filter_map, List.filter_filter]
  congr 1
  apply List.filter_congr
  intro sent member
  obtain ⟨delivery, delivered, inside⟩ := List.mem_flatMap.mp member
  by_cases own : sent.1 = peer
  · simp [own]
  · simp [own, h delivery delivered sent inside own]

end Delivery

namespace Controller

variable {Peer : Type*} [DecidableEq Peer]

/-- A live path survives every interleaving in which no other peer has used its
    NLRI and path id since it was announced. -/
theorem live_path_offered (peer : Peer) (earlier later : List (Delivery Peer)) (route : Route)
    (nh : Nexthop) (live : Delivery.live peer later route = some nh)
    (unshared : Delivery.Unshared peer route later) :
    ∃ after, ((earlier ++ later).map Delivery.event).foldlM step new = .ok after ∧
      after.rib.nexthop? route = some nh ∧ nh ∈ after.rib.nexthops route.nlri := by
  obtain ⟨after, ran, table⟩ := nexthop?_run ((earlier ++ later).map Delivery.event)
  have kept : after.rib.nexthop? route = some nh := by
    rw [table, List.flatMap_map, List.flatMap_append, final_append]
    exact final_congr (Delivery.on_own unshared) live _
  exact ⟨after, ran, kept, Rib.mem_nexthops kept⟩

section Clash

private def shared : Route := ⟨some 1, .v4 (.clamped (.new 10 2 0 0) 16)⟩

private def hopOfA : Nexthop := .v4 (.new 192 0 2 10)

private def hopOfB : Nexthop := .v4 (.new 192 0 2 20)

private def announced (hop : Nexthop) : Update := ⟨[⟨[shared], hop⟩], []⟩

private def fromA : List (Delivery Bool) := [.update true (announced hopOfA)]

/-- Both peers number their path to one prefix 1; `true` stands for peer A. -/
private def clash : List (Delivery Bool) := fromA ++ [.update false (announced hopOfB)]

theorem live_path_clobbered :
    Delivery.live true clash shared = some hopOfA ∧
      ∃ after, (clash.map Delivery.event).foldlM step new = .ok after ∧
        hopOfA ∉ after.rib.nexthops shared.nlri :=
  ⟨by decide +kernel, (new.applyUpdate (announced hopOfA)).applyUpdate (announced hopOfB), rfl,
    by decide +kernel⟩

theorem live_path_offered_alone :
    ∃ after, ((clash ++ fromA).map Delivery.event).foldlM step new = .ok after ∧
      after.rib.nexthop? shared = some hopOfA ∧ hopOfA ∈ after.rib.nexthops shared.nlri :=
  live_path_offered true clash fromA shared hopOfA (by decide +kernel) (by
      intro delivery member sent inside other
      obtain rfl := List.mem_singleton.mp member
      obtain ⟨op, -, rfl⟩ := List.mem_map.mp inside
      exact absurd rfl other)

end Clash

end Controller

end Erez.Daemon
