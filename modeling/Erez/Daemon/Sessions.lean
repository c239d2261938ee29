import Erez.Daemon.Agreement
import Erez.Daemon.Bgp
import Erez.Daemon.RouteEvents

/-! # What a session leaves behind

Only updates travel from a peer's task to the controller. The state machine may
leave `Established`, come back or fail for good: none of that is a message, so the
table and the FIB stay as the updates made them.
-/

namespace Erez.Daemon

open Erez.Lib LastWriter

/-- The session is not up: some other state, or the task's last result. -/
def FsmResult.Down : FsmResult → Prop
  | .ok (state, _) => state ≠ .established
  | .error _ => True

instance (result : FsmResult) : Decidable result.Down :=
  match result with
  | .ok (_, _) => inferInstanceAs (Decidable (_ ≠ _))
  | .error _ => .isTrue trivial

theorem FsmResult.update?_of_down {result : FsmResult} (down : result.Down) :
    result.update? = none := by
  match result, down with
  | .error _, _ => rfl
  | .ok (state, event), down =>
      cases state with
      | established => exact absurd rfl down
      | idle | connect | active | openSent | openConfirm => rfl

/-- What a longer stream adds: the updates of its last part, or nothing if the
    task has stopped before. -/
theorem processBgpUpdates_append (before later : List FsmResult) :
    processBgpUpdates (before ++ later) = processBgpUpdates before ∨
      processBgpUpdates (before ++ later) = processBgpUpdates before ++ processBgpUpdates later := by
  induction before with
  | nil => exact .inr rfl
  | cons result rest ih =>
      cases result with
      | error e => exact .inl rfl
      | ok result =>
          rw [List.cons_append, processBgpUpdates, processBgpUpdates, List.append_assoc]
          exact ih.imp (congrArg _) (congrArg _)

theorem processBgpUpdates_of_down {results : List FsmResult} (down : ∀ r ∈ results, r.Down) :
    processBgpUpdates results = [] := by
  induction results with
  | nil => rfl
  | cons result rest ih =>
      have silent := FsmResult.update?_of_down (down result List.mem_cons_self)
      have quiet := ih fun r member => down r (List.mem_cons_of_mem result member)
      cases result with
      | error e => rfl
      | ok result => rw [processBgpUpdates, silent, quiet]; rfl

/-- The controller once it has taken in everything the task sent. -/
def drained (results : List FsmResult) : Except Descent.Panic Controller :=
  ((processBgpUpdates results).map Event.update).foldlM Controller.step .new

/-- The routes that a stream of results announces or withdraws. -/
def routeOps (results : List FsmResult) : List RouteOp :=
  (processBgpUpdates results).flatMap Update.ops

theorem nexthop?_drained (results : List FsmResult) :
    ∃ c, drained results = .ok c ∧
      c.rib.nexthop? = final (routeOps results) fun _ => none := by
  obtain ⟨c, ran, table⟩ :=
    Controller.nexthop?_run ((processBgpUpdates results).map Event.update)
  refine ⟨c, ran, ?_⟩
  rw [table, List.flatMap_map]
  rfl

/-- The end of a session changes neither table nor FIB, and a route outlives it
    until some later update announces or withdraws it again. -/
theorem routes_outlive_session (before ended later : List FsmResult)
    (down : ∀ r ∈ ended, r.Down) :
    ∃ c, drained before = .ok c ∧ drained (before ++ ended) = .ok c ∧
      ∃ c', drained (before ++ ended ++ later) = .ok c' ∧
        ∀ route, (∀ op ∈ routeOps later, op.key ≠ route) →
          c'.rib.nexthop? route = c.rib.nexthop? route := by
  have silent : processBgpUpdates (before ++ ended) = processBgpUpdates before := by
    rcases processBgpUpdates_append before ended with stopped | goesOn
    · exact stopped
    · rw [goesOn, processBgpUpdates_of_down down, List.append_nil]
  have same : drained (before ++ ended) = drained before := by rw [drained, silent, drained]
  obtain ⟨c, ran, table⟩ := nexthop?_drained (before ++ ended)
  obtain ⟨c', ran', table'⟩ := nexthop?_drained (before ++ ended ++ later)
  refine ⟨c, same ▸ ran, ran, c', ran', fun route untouched => ?_⟩
  rw [table, table', routeOps]
  rcases processBgpUpdates_append (before ++ ended) later with stopped | goesOn
  · rw [stopped]
    rfl
  · rw [goesOn, List.flatMap_append, final_append]
    exact final_of_untouched untouched _

section Flap

/-- The results of the session that was up last. -/
def endedSession (results : List FsmResult) : List FsmResult :=
  ((results.reverse.dropWhile fun r => r.Down).takeWhile fun r => ¬ r.Down).reverse

/-- The session is down although it was up before. -/
def SessionEnded (results : List FsmResult) : Prop :=
  (∃ last, results.getLast? = some last ∧ last.Down) ∧ ∃ r ∈ results, ¬ r.Down

/-- After the session has ended the table has no route it announced, and the FIB
    offers only nexthops that other routes support. -/
structure NoStaleRoutes (results : List FsmResult) (c : Controller) : Prop where
  rib : ∀ route nh, .put route nh ∈ routeOps (endedSession results) → c.rib.nexthop? route = none
  fib : ∀ nlri entry, c.installed nlri = some entry → ∀ addr ∈ entry.active,
    ∃ route nh, c.rib.nexthop? route = some nh ∧ route.nlri = nlri ∧ addr = .ofIpAddr nh ∧
      .put route nh ∉ routeOps (endedSession results)

private def flapRoute : Route := ⟨some 7, .v4 (.clamped (.new 10 3 0 0) 16)⟩

private def flapHop : Ipv6Addr := .new 0x2001 0xdb8 0 0 0 0 0 1

/-- A route is announced, and then the session falls back to `Idle`. -/
private def flap : List FsmResult :=
  [.ok (.established, .updateMsg
      ⟨[], [.mpReach (.ipv4Unicast (.v6 flapHop) none
        [⟨some 7, ⟨.clamped (.new 10 3 0 0) 16, by decide +kernel⟩⟩])], []⟩ .normal),
    .ok (.idle, .other)]

theorem stale_route_after_flap :
    SessionEnded flap ∧ ∃ c, drained flap = .ok c ∧ ¬ NoStaleRoutes flap c := by
  refine ⟨⟨⟨.ok (.idle, .other), rfl, by decide⟩, by decide +kernel⟩, ?_⟩
  refine ⟨Controller.new.applyUpdate ⟨[⟨[flapRoute], .v6 flapHop⟩], []⟩, rfl, fun fresh => ?_⟩
  have gone := fresh.rib flapRoute (.v6 flapHop) (by decide +kernel)
  revert gone
  decide +kernel

theorem routes_outlive_flap :
    ∃ c, drained flap = .ok c ∧ drained (flap ++ [.error .bgpMessageWritingError]) = .ok c := by
  obtain ⟨c, ran, same, -⟩ := routes_outlive_session flap [.error .bgpMessageWritingError] []
    (by decide)
  exact ⟨c, ran, same⟩

end Flap

end Erez.Daemon
