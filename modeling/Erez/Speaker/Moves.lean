import Erez.Lib.Ended
import Erez.Speaker.Peer

/-! # What a step of a peer can do

`Moves` says once all that a step of the task can make of a peer, in a case for each
kind of step, and where a step can be dropped or fail. The invariants of the peer are
case analyses of it; nothing else unfolds a step.
-/

namespace Erez.Speaker

open Daemon Lib

def PeerAdminEvent.IsStart (event : PeerAdminEvent) : Prop :=
  event = .manualStart ∨ event = .automaticStart

/-- The answer to an administrative event. -/
def BgpEvent.IsAdmin : BgpEvent → Prop
  | connectRetryTimerExpires | openCollisionDump | connection _ => False
  | _ => True

def PeerAdminEvent.IsStop (event : PeerAdminEvent) : Prop :=
  event = .manualStop ∨ event = .automaticStop

namespace Peer

/-! ## The cases -/

/-- The notes that the task keeps for itself. -/
def noted (p : Peer) (waitingAdminEvents : List PeerAdminEvent) (selecting : Option Selecting) :
    Peer :=
  { p with waitingAdminEvents, selecting }

/-- The peer is stopped; its connections are not yet dropped. -/
def down (p : Peer) : Peer :=
  { p.takeRetryTimer.fsmTransition .idle with peerState := .adminDown }

def started (p : Peer) : Peer :=
  if p.config.passiveTcpEstablishment then p.start.startRetryTimer else p.start

/-- Two connections collide, and this is the verdict. -/
structure Collides (p : Peer) (main tracked : Connection) (verdict : CollisionCheckRet) :
    Prop where
  main_ : p.connection = some main
  tracked_ : p.trackedConnection = some tracked
  check : checkConnectionCollision p.properties.myBgpId (some main) (some tracked) = some verdict

/-- How a collision ends. -/
inductive Resolves (p : Peer) (out : Sending) : Peer → Except Stop (Option BgpEvent) → Prop
  | promotes {main tracked : Connection} {after : FsmState}
      (collides : p.Collides main tracked .dropMain)
      (state : fsmStateFromTracked p.fsmState tracked = .ok after) :
      Resolves p out
        { p.countRetry.fsmTransition after with
          connection := some tracked
          trackedConnection := none }
        (.ok (some .openCollisionDump))
  | loses {main tracked : Connection} {after : FsmState}
      (collides : p.Collides main tracked .dropMain)
      (state : fsmStateFromTracked p.fsmState tracked = .ok after) (dropped : ¬ out.Lasts) :
      Resolves p out
        { p.countRetry.fsmTransition after with connection := none, trackedConnection := none }
        (.error .cancelled)
  | breaks {main tracked : Connection} {error : FsmStateError}
      (collides : p.Collides main tracked .dropMain)
      (state : fsmStateFromTracked p.fsmState tracked = .error error) :
      Resolves p out { p.countRetry with trackedConnection := none } (.error (.error error))
  | dismisses {main tracked : Connection} (collides : p.Collides main tracked .dropTracked) :
      Resolves p out { p with trackedConnection := none } (.ok (some .openCollisionDump))
  | dismissalStopped {main tracked : Connection} (collides : p.Collides main tracked .dropTracked)
      (dropped : ¬ out.Lasts) :
      Resolves p out { p with trackedConnection := none } (.error .cancelled)
  | mismatches {main tracked tracked' : Connection} {peerId : Ipv4Addr}
      (collides : p.Collides main tracked (.invalidTrackedBgpId peerId))
      (notified : Notified tracked tracked') (s : Selecting) :
      Resolves p out
        { p with trackedConnection := some tracked', selecting := some { s with hidden := true } }
        (.ok none)

/-- A connection comes in, or the dialing succeeds. -/
inductive Arrives (p : Peer) :
    Option PeerAdminEvent → Input → ConnectionType → Timing → Sending → ConnectionEvent → Prop
  | accepted {timing : Timing} {out outTracked : Sending}
      (allowed : ¬ (p.peerState = .adminDown ∨
        (p.connection.isSome ∧ p.trackedConnection.isSome) ∨
        (p.fsmState = .established ∧ !p.config.collisionDetectEstablishedState))) :
      Arrives p (some .tcpConnectionConfirmed) (.admin timing out outTracked) .passive timing
        out .tcpConnectionConfirmed
  | dialed {due : Option PeerAdminEvent} {timing : Timing} {out : Sending} :
      Arrives p due (.dialed (some timing) out) .active timing out .tcpConnectionRequestAcked

/-- What a step makes of a peer, with its answer; `due` is the administrative event
    that waits. -/
inductive Moves (p : Peer) (due : Option PeerAdminEvent) :
    Input → Peer → Except Stop (Option BgpEvent) → Prop
  | rests (input : Input) : Moves p due input p (.ok none)
  | dials (at_ : p.fsmState = .connect) (allowed : p.allowedToActiveConnect = true) :
      Moves p due .dial { p with allowedToActiveConnect := false } (.ok none)
  | retries (running : p.connectRetryTimer ≠ none) :
      Moves p due .connectRetryTick p.handleConnectRetryTick (.ok (some .connectRetryTimerExpires))
  | starts {timing : Timing} {out outTracked : Sending} {admin : PeerAdminEvent}
      {event : BgpEvent} (due_ : due = some admin) (start : admin.IsStart)
      (idle : p.fsmState = .idle) (admin_ : event.IsAdmin) :
      Moves p due (.admin timing out outTracked) p.started (.ok (some event))
  | stops {timing : Timing} {out outTracked : Sending} {admin : PeerAdminEvent}
      {event : BgpEvent} (due_ : due = some admin) (stop : admin.IsStop) (counter : ℕ)
      (admin_ : event.IsAdmin) :
      Moves p due (.admin timing out outTracked)
        { p.down with
          connection := none
          trackedConnection := none
          connectRetryCounter := counter }
        (.ok (some event))
  | stopInterrupted {timing : Timing} {out outTracked : Sending} {admin : PeerAdminEvent}
      {main main' : Connection} (due_ : due = some admin) (stop : admin.IsStop)
      (main_ : p.connection = some main) (dropped : ¬ out.Lasts) (notified : Notified main main') :
      Moves p due (.admin timing out outTracked) { p.down with connection := some main' }
        (.error .cancelled)
  | stopInterruptedLate {timing : Timing} {out outTracked : Sending} {admin : PeerAdminEvent}
      {tracked tracked' : Connection} (due_ : due = some admin) (stop : admin.IsStop)
      (tracked_ : p.trackedConnection = some tracked) (notified : Notified tracked tracked') :
      Moves p due (.admin timing out outTracked)
        { p.down with connection := none, trackedConnection := some tracked' } (.error .cancelled)
  | adds {input : Input} {type : ConnectionType} {timing : Timing} {out : Sending}
      {event : ConnectionEvent} {c : Connection}
      (arrives : p.Arrives due input type timing out event)
      (handled : Handled p.policy.openMessage (.new p.properties type p.config timing) event c
        none) :
      Moves p due input (p.takeRetryTimer.addConnection c) (.ok (some (.connection event)))
  | addStopped {input : Input} {type : ConnectionType} {timing : Timing} {out : Sending}
      {event : ConnectionEvent} {stop : Stop} (arrives : p.Arrives due input type timing out event)
      (kind : stop.IsSending out) : Moves p due input p.takeRetryTimer (.error stop)
  | refused {out : Sending} :
      Moves p due (.dialed none out) p.takeRetryTimer
        (.ok (some (.connection .tcpConnectionFails)))
  | handles {stimulus : Stimulus} {out outCease : Sending} {main c c' : Connection}
      {event : ConnectionEvent} {q : Peer} (main_ : p.connection = some main)
      (polled : main.pollNext stimulus = some (c, event))
      (handled : Handled (p.policy.preHandleConnectionEventHook event).openMessage c event c' none)
      (after : { p with
        policy := p.policy.preHandleConnectionEventHook event
        connection := some c' }.afterEvent c' c.state event = .ok q) :
      Moves p due (.main stimulus out outCease) q (.ok (some (.connection event)))
  | invalid {stimulus : Stimulus} {out outCease : Sending} {main c c' : Connection}
      {event : ConnectionEvent} {error : FsmStateError} (main_ : p.connection = some main)
      (polled : main.pollNext stimulus = some (c, event))
      (handled : Handled (p.policy.preHandleConnectionEventHook event).openMessage c event c' none)
      (after : { p with
        policy := p.policy.preHandleConnectionEventHook event
        connection := some c' }.afterEvent c' c.state event = .error error) :
      Moves p due (.main stimulus out outCease)
        { p with
          policy := p.policy.preHandleConnectionEventHook event
          connection := some c' }
        (.error (.error error))
  | handlingStopped {stimulus : Stimulus} {out outCease : Sending} {main c c' : Connection}
      {event : ConnectionEvent} {stop : Stop} (main_ : p.connection = some main)
      (polled : main.pollNext stimulus = some (c, event))
      (handled : Handled (p.policy.preHandleConnectionEventHook event).openMessage c event c'
        (some stop)) (kind : stop.IsSending out) :
      Moves p due (.main stimulus out outCease)
        { p with
          policy := p.policy.preHandleConnectionEventHook event
          connection := some c' }
        (.error stop)
  | resolves {stimulus : Stimulus} {out outCease : Sending} {main c : Connection}
      {event : ConnectionEvent} {q : Peer} {answer : Except Stop (Option BgpEvent)}
      (main_ : p.connection = some main) (polled : main.pollNext stimulus = some (c, event))
      (resolved : { p with connection := some c }.Resolves outCease q answer) :
      Moves p due (.main stimulus out outCease) q answer
  | tracks {stimulus : Stimulus} {out outCease : Sending} {tracked c c' : Connection}
      {event : ConnectionEvent} {stop : Option Stop} (tracked_ : p.trackedConnection = some tracked)
      (away : p.fsmState ≠ .connect) (early : c.state ≠ .openConfirm)
      (polled : tracked.pollNext stimulus = some (c, event))
      (handled : Handled (p.policy.preHandleConnectionEventHook event).openMessage c event c'
        stop) :
      Moves p due (.tracked stimulus out outCease)
        { p with
          policy := p.policy.preHandleConnectionEventHook event
          trackedConnection := some c' }
        (.ok none)
  | tracksResolves {stimulus : Stimulus} {out outCease : Sending} {tracked c c' : Connection}
      {event : ConnectionEvent} {stop : Option Stop} {q : Peer}
      {answer : Except Stop (Option BgpEvent)} (tracked_ : p.trackedConnection = some tracked)
      (away : p.fsmState ≠ .connect) (early : c.state ≠ .openConfirm)
      (polled : tracked.pollNext stimulus = some (c, event))
      (handled : Handled (p.policy.preHandleConnectionEventHook event).openMessage c event c'
        stop)
      (resolved : { p with
        policy := p.policy.preHandleConnectionEventHook event
        trackedConnection := some c' }.Resolves outCease q answer) :
      Moves p due (.tracked stimulus out outCease) q answer

/-! ## The functions of the task -/

theorem runHandler_cases (out : Sending) (ours : BgpOpenMessage) (event : ConnectionEvent)
    (c : Connection) :
    ∃ c' stop, runHandler (handleEvent out ours event) c = (c', stop) ∧
      Handled ours c event c' stop ∧ ∀ s, stop = some s → s.IsSending out := by
  rcases handleEvent_handles out ours event c with ⟨c', ran, handled⟩ | ⟨stop, c', ran, kind, handled⟩
  · exact ⟨c', none, by rw [runHandler, ran], handled, by simp⟩
  · refine ⟨c', some stop, by rw [runHandler, ran], handled, ?_⟩
    rintro _ ⟨⟩
    exact kind

theorem runHandler_trySend_cases (out : Sending) (notif : BgpNotificationMessage)
    (c : Connection) :
    ∃ c', Notified c c' ∧
      (runHandler (Handler.trySend out (.notification notif)) c = (c', none) ∨
        runHandler (Handler.trySend out (.notification notif)) c = (c', some .cancelled) ∧
          ¬ out.Lasts) := by
  simp only [runHandler, Handler.trySend]
  cases sent : out (.notification notif) with
  | sent => exact ⟨_, ⟨notif, .inr rfl⟩, .inl rfl⟩
  | failed recorded =>
      refine ⟨_, ⟨notif, ?_⟩, .inl rfl⟩
      cases recorded <;> simp [Offered]
  | cancelled recorded =>
      refine ⟨_, ⟨notif, ?_⟩, .inr ⟨rfl, fun lasts => lasts _ _ sent⟩⟩
      cases recorded <;> simp [Offered]

/-- What `shutdown` can make of a peer. -/
inductive Shuts (p : Peer) (out : Sending) : Peer → Except Stop Unit → Prop
  | all : Shuts p out { p.down with connection := none, trackedConnection := none } (.ok ())
  | interrupted {main main' : Connection} (main_ : p.connection = some main)
      (dropped : ¬ out.Lasts) (notified : Notified main main') :
      Shuts p out { p.down with connection := some main' } (.error .cancelled)
  | interruptedLate {tracked tracked' : Connection} (tracked_ : p.trackedConnection = some tracked)
      (notified : Notified tracked tracked') :
      Shuts p out { p.down with connection := none, trackedConnection := some tracked' }
        (.error .cancelled)

theorem ceaseMain_spec (p : Peer) (out : Sending) :
    Ended (fun q answer =>
        (∃ connection, answer = .ok () ∧ q = { p with connection }) ∨
          ∃ main main', p.connection = some main ∧ ¬ out.Lasts ∧ Notified main main' ∧
            answer = .error .cancelled ∧ q = { p with connection := some main' })
      ((ceaseMain out).run p) := by
  refine .get_bind ?_
  cases main_ : p.connection with
  | none => exact .inl ⟨none, rfl, by rw [← main_]⟩
  | some main =>
      obtain ⟨main', notified, ran⟩ :=
        runHandler_trySend_cases out (.ceaseError (.administrativeShutdown [])) main
      rcases ran with ran | ⟨ran, dropped⟩
      · simp only [cease, ran]
        exact .inl ⟨_, rfl, rfl⟩
      · simp only [cease, ran]
        exact .inr ⟨_, _, rfl, dropped, notified, rfl, rfl⟩

theorem ceaseTracked_spec (p : Peer) (out : Sending) :
    Ended (fun q answer =>
        (∃ trackedConnection, answer = .ok () ∧ q = { p with trackedConnection }) ∨
          ∃ tracked tracked', p.trackedConnection = some tracked ∧ Notified tracked tracked' ∧
            answer = .error .cancelled ∧ q = { p with trackedConnection := some tracked' })
      ((ceaseTracked out).run p) := by
  refine .get_bind ?_
  cases tracked_ : p.trackedConnection with
  | none => exact .inl ⟨none, rfl, by rw [← tracked_]⟩
  | some tracked =>
      obtain ⟨tracked', notified, ran⟩ :=
        runHandler_trySend_cases out (.ceaseError (.administrativeShutdown [])) tracked
      rcases ran with ran | ⟨ran, -⟩
      · simp only [cease, ran]
        exact .inl ⟨_, rfl, rfl⟩
      · simp only [cease, ran]
        exact .inr ⟨_, _, rfl, notified, rfl, rfl⟩

theorem shutdown_shuts (p : Peer) (out outTracked : Sending) :
    Ended (p.Shuts out) ((shutdown out outTracked).run p) := by
  refine .modify_bind (.bind (p.down.ceaseMain_spec out) ?_ ?_)
  · rintro ⟨⟩ q (⟨connection, -, rfl⟩ | ⟨_, _, -, -, -, ⟨⟩, -⟩)
    refine .modify_bind (.bind (ceaseTracked_spec _ outTracked) ?_ ?_)
    · rintro ⟨⟩ q (⟨trackedConnection, -, rfl⟩ | ⟨_, _, -, -, ⟨⟩, -⟩)
      exact .all
    · rintro stop q (⟨_, ⟨⟩, -⟩ | ⟨tracked, tracked', tracked_, notified, ⟨⟩, rfl⟩)
      exact .interruptedLate tracked_ notified
  · rintro stop q (⟨_, ⟨⟩, -⟩ | ⟨main, main', main_, dropped, notified, ⟨⟩, rfl⟩)
    exact .interrupted main_ dropped notified

section Admin

variable {timing : Timing} {out outTracked : Sending} {admin : PeerAdminEvent}

theorem runStart_moves (p : Peer) (start : admin.IsStart) {event passive : BgpEvent}
    (admin_ : event.IsAdmin) (passive_ : passive.IsAdmin) :
    Ended (p.Moves (some admin) (.admin timing out outTracked))
      ((runStart event passive).run p) := by
  refine .get_bind ?_
  by_cases idle : p.fsmState = .idle
  · rw [if_neg (not_not.mpr idle)]
    refine .modify_bind ?_
    have moved {event : BgpEvent} (admin_ : event.IsAdmin) :
        p.Moves (some admin) (.admin timing out outTracked) p.started (.ok (some event)) :=
      .starts rfl start idle admin_
    rw [started] at moved
    split
    · rename_i waits
      rw [if_pos waits] at moved
      exact .modify_bind (moved passive_)
    · rename_i dials
      rw [if_neg dials] at moved
      exact moved admin_
  · rw [if_pos idle]
    exact .rests _

theorem acceptConnection_moves (p : Peer) :
    Ended (p.Moves (some .tcpConnectionConfirmed) (.admin timing out outTracked))
      ((acceptConnection timing out).run p) := by
  refine .get_bind ?_
  split
  · exact .rests _
  · rename_i allowed
    refine .modify_bind ?_
    obtain ⟨c, stop, ran, handled, kind⟩ := runHandler_cases out p.policy.openMessage
      .tcpConnectionConfirmed (.new p.properties .passive p.config timing)
    simp only [ran]
    cases stop with
    | none => exact .adds (.accepted allowed) handled
    | some stop => exact .addStopped (.accepted allowed) (kind stop rfl)

theorem runAdmin_moves (p : Peer) (timing : Timing) (out outTracked : Sending)
    (admin : PeerAdminEvent) :
    Ended (p.Moves (some admin) (.admin timing out outTracked))
      ((runAdmin timing out outTracked admin).run p) := by
  have stops {admin : PeerAdminEvent} (stop : admin.IsStop) {f : Peer → Peer} {event : BgpEvent}
      (admin_ : event.IsAdmin) (counts : ∀ q, ∃ n, f q = { q with connectRetryCounter := n }) :
      Ended (p.Moves (some admin) (.admin timing out outTracked)) (EStateM.run (do
        shutdown out outTracked
        modify f
        return some event) p) := by
    refine .bind (p.shutdown_shuts out outTracked) ?_ ?_
    · rintro ⟨⟩ q ⟨⟩
      refine .modify_bind ?_
      obtain ⟨n, same⟩ := counts { p.down with connection := none, trackedConnection := none }
      rw [same]
      exact .stops rfl stop n admin_
    · rintro _ q (_ | ⟨main_, dropped, notified⟩ | ⟨tracked_, notified⟩)
      · exact .stopInterrupted rfl stop main_ dropped notified
      · exact .stopInterruptedLate rfl stop tracked_ notified
  cases admin with
  | manualStart => exact p.runStart_moves (.inl rfl) trivial trivial
  | manualStop => exact stops (.inl rfl) trivial fun q => ⟨0, rfl⟩
  | automaticStart => exact p.runStart_moves (.inr rfl) trivial trivial
  | automaticStop => exact stops (.inr rfl) trivial fun q => ⟨_, rfl⟩
  | tcpConnectionConfirmed => exact p.acceptConnection_moves

end Admin

theorem handleActiveConnection_moves (p : Peer) (due : Option PeerAdminEvent)
    (dialed : Option Timing) (out : Sending) :
    Ended (fun q answer => p.Moves due (.dialed dialed out) q (answer.map some))
      ((handleActiveConnection dialed out).run p) := by
  cases dialed with
  | none => exact .refused
  | some timing =>
      obtain ⟨c, stop, ran, handled, kind⟩ := runHandler_cases out p.policy.openMessage
        .tcpConnectionRequestAcked (.new p.properties .active p.config timing)
      refine .get_bind (.modify_bind ?_)
      simp only [ran]
      cases stop with
      | none => exact .adds .dialed handled
      | some stop => exact .addStopped .dialed (kind stop rfl)

/-! ## Events and collisions -/

theorem handleConnectionEvent_moves (p : Peer) (due : Option PeerAdminEvent)
    {stimulus : Stimulus} {out outCease : Sending} {main c : Connection} {event : ConnectionEvent}
    (main_ : p.connection = some main) (polled : main.pollNext stimulus = some (c, event)) :
    Ended (fun q answer => p.Moves due (.main stimulus out outCease) q (answer.map some))
      ((handleConnectionEvent out event).run { p with connection := some c }) := by
  obtain ⟨c', stop, ran, handled, kind⟩ := runHandler_cases out
    (p.policy.preHandleConnectionEventHook event).openMessage event c
  refine .get_bind ?_
  simp only [ran]
  refine .set_bind ?_
  cases stop with
  | some stop => exact .handlingStopped main_ polled handled (kind stop rfl)
  | none =>
      dsimp only
      split
      · rename_i after
        exact .handles main_ polled handled after
      · rename_i after
        exact .invalid main_ polled handled after

theorem checkConnectionCollision_collides {p : Peer} {visible : Option Connection}
    {verdict : CollisionCheckRet} (seen : ∀ c, visible = some c → p.trackedConnection = some c)
    (check : checkConnectionCollision p.properties.myBgpId p.connection visible = some verdict) :
    ∃ main tracked, visible = some tracked ∧ p.Collides main tracked verdict := by
  cases main_ : p.connection with
  | none =>
      rw [main_] at check
      cases check
  | some main =>
      cases visible with
      | none =>
          rw [main_, checkConnectionCollision] at check
          cases main.peerBgpId <;> simp at check
      | some tracked => exact ⟨main, tracked, rfl, main_, seen tracked rfl, main_ ▸ check⟩

theorem checkConnectionCollision_none (myBgpId : Ipv4Addr) (main : Connection) :
    checkConnectionCollision myBgpId (some main) none = none := by
  rw [checkConnectionCollision]
  cases main.peerBgpId <;> simp

theorem checkConnectionCollision_alone {p : Peer} (alone : p.trackedConnection = none)
    (c : Connection) (s : Selecting) :
    checkConnectionCollision p.properties.myBgpId (some c) (p.visible s) = none := by
  rw [visible, alone, ite_self, checkConnectionCollision_none]

theorem farewell_spec (p : Peer) (out : Sending) (message : BgpMessage) :
    Ended (fun q answer => q = p ∧ (answer = .ok () ∨ answer = .error .cancelled ∧ ¬ out.Lasts))
      ((farewell out message).run p) := by
  rw [farewell]
  cases sent : out message with
  | sent => exact ⟨rfl, .inl rfl⟩
  | failed recorded => exact ⟨rfl, .inl rfl⟩
  | cancelled recorded => exact ⟨rfl, .inr ⟨rfl, fun lasts => lasts message recorded sent⟩⟩

theorem dropMain_resolves (p : Peer) (out : Sending) {main tracked : Connection}
    (collides : p.Collides main tracked .dropMain) :
    Ended (fun q answer => p.Resolves out q (answer.map some)) ((dropMain out).run p) := by
  refine .get_bind ?_
  simp only [collides.tracked_]
  refine .modify_bind ?_
  split
  · rename_i state
    exact .breaks collides state
  · rename_i after state
    refine .modify_bind ?_
    rw [if_pos (by rw [collides.main_]; rfl)]
    refine .modify_bind (.bind (farewell_spec _ out _) ?_ ?_)
    · rintro ⟨⟩ q ⟨rfl, -⟩
      exact .promotes collides state
    · rintro stop q ⟨rfl, ⟨⟨⟩⟩ | ⟨⟨⟩, dropped⟩⟩
      exact .loses collides state dropped

theorem dropTracked_resolves (p : Peer) (out : Sending) {main tracked : Connection}
    (collides : p.Collides main tracked .dropTracked) :
    Ended (fun q answer => p.Resolves out q (answer.map some)) ((dropTracked out).run p) := by
  refine .get_bind ?_
  rw [if_pos (by rw [collides.tracked_]; rfl)]
  refine .modify_bind (.bind (farewell_spec _ out _) ?_ ?_)
  · rintro ⟨⟩ q ⟨rfl, -⟩
    exact .dismisses collides
  · rintro stop q ⟨rfl, ⟨⟨⟩⟩ | ⟨⟨⟩, dropped⟩⟩
    exact .dismissalStopped collides dropped

theorem visible_eq_some {p : Peer} {s : Selecting} {c : Connection} (seen : p.visible s = some c) :
    p.trackedConnection = some c := by
  rw [visible] at seen
  split at seen
  · cases seen
  · exact seen

theorem resolve_of_some (p : Peer) {s : Selecting} (outCease : Sending)
    (goOn : Step (Option BgpEvent)) {verdict : CollisionCheckRet}
    (check : checkConnectionCollision p.properties.myBgpId p.connection (p.visible s) =
      some verdict) :
    Ended (p.Resolves outCease) ((resolve s outCease goOn).run p) := by
  obtain ⟨main, tracked, seen, collides⟩ :=
    checkConnectionCollision_collides (fun _ => visible_eq_some) check
  refine .get_bind ?_
  rw [check]
  cases verdict with
  | dropMain => exact .map (p.dropMain_resolves outCease collides)
  | dropTracked => exact .map (p.dropTracked_resolves outCease collides)
  | invalidTrackedBgpId peerId =>
      obtain ⟨tracked', notified, ran⟩ := runHandler_trySend_cases outCease
        (.openMessageError (.badBgpIdentifier peerId.octets.toList)) tracked
      simp only [seen]
      rcases ran with ran | ⟨ran, -⟩ <;>
      · simp only [ran]
        exact .modify_bind (.modify_bind (.mismatches collides notified _))

theorem resolve_of_none (p : Peer) {s : Selecting} (outCease : Sending)
    (goOn : Step (Option BgpEvent))
    (check : checkConnectionCollision p.properties.myBgpId p.connection (p.visible s) = none) :
    (resolve s outCease goOn).run p = goOn.run p := by
  simp only [resolve, EStateM.run_bind, EStateM.run_get, check]

/-- Either the collision is resolved, or there is none and things go on. -/
theorem resolve_ended {R : Peer → Except Stop (Option BgpEvent) → Prop} (p : Peer) (s : Selecting)
    (outCease : Sending) {goOn : Step (Option BgpEvent)} (goes : Ended R (goOn.run p))
    (resolves : ∀ q answer, p.Resolves outCease q answer → R q answer) :
    Ended R ((resolve s outCease goOn).run p) := by
  cases check : checkConnectionCollision p.properties.myBgpId p.connection (p.visible s) with
  | none =>
      rw [p.resolve_of_none outCease goOn check]
      exact goes
  | some verdict => exact (p.resolve_of_some outCease goOn check).mono resolves

theorem mainEvent_moves (p : Peer) (due : Option PeerAdminEvent) (s : Selecting)
    (stimulus : Stimulus) (out outCease : Sending) :
    Ended (p.Moves due (.main stimulus out outCease))
      ((mainEvent s stimulus out outCease).run p) := by
  refine .get_bind ?_
  split
  · rename_i c event polled
    obtain ⟨main, main_, polled⟩ := Option.bind_eq_some_iff.mp polled
    refine .set_bind (resolve_ended _ s outCease ?_ ?_)
    · exact .map (p.handleConnectionEvent_moves due main_ polled)
    · exact fun q answer resolved => .resolves main_ polled resolved
  · exact .rests _

theorem trackedEvent_moves (p : Peer) (due : Option PeerAdminEvent) (s : Selecting)
    (stimulus : Stimulus) (out outCease : Sending) :
    Ended (p.Moves due (.tracked stimulus out outCease))
      ((trackedEvent s stimulus out outCease).run p) := by
  refine .get_bind ?_
  split
  · rename_i c event polled
    obtain ⟨tracked, seen, polled⟩ := Option.bind_eq_some_iff.mp polled
    have tracked_ := visible_eq_some seen
    by_cases left : p.fsmState = .connect ∨ c.state = .openConfirm
    · rw [if_pos left]
      exact .rests _
    · rw [if_neg left]
      obtain ⟨away, early⟩ := not_or.mp left
      obtain ⟨c', stop, ran, handled, kind⟩ := runHandler_cases out
        (p.policy.preHandleConnectionEventHook event).openMessage event c
      simp only [ran]
      refine .set_bind ?_
      have tracks : p.Moves due (.tracked stimulus out outCease) _ (.ok none) :=
        .tracks tracked_ away early polled handled
      split
      · exact tracks
      · exact resolve_ended _ s outCease tracks fun q answer resolved =>
          .tracksResolves tracked_ away early polled handled resolved
  · exact .rests _

/-! ## Steps -/

/-- Something on the main connection of a peer that waits. -/
theorem step_main {p : Peer} {s : Selecting} {main c : Connection} {stimulus : Stimulus}
    {event : ConnectionEvent} (out outCease : Sending) (busy : p.selecting = some s)
    (main_ : p.connection = some main) (polled : main.pollNext stimulus = some (c, event)) :
    p.step (.main stimulus out outCease) =
      finish ((resolve s outCease (some <$> handleConnectionEvent out event)).run
        { p with connection := some c }) := by
  have waits : p.step (.main stimulus out outCease) =
      match p.selecting with
      | some s => finish ((mainEvent s stimulus out outCease).run p)
      | none => .ok (p, none) := by
    rw [step.eq_def]
    cases p.selecting <;> rfl
  rw [waits]
  simp only [busy]
  rw [mainEvent, EStateM.run_bind, EStateM.run_get]
  simp only [main_, Option.bind_some, polled]
  rw [EStateM.run_bind, EStateM.run_set, busy]

/-- Something on the tracked connection of a peer that waits, handled before it is dropped. -/
theorem step_tracked {p : Peer} {s : Selecting} {tracked c c' : Connection} {stimulus : Stimulus}
    {event : ConnectionEvent} {out outCease : Sending} {stop : Option Stop}
    (busy : p.selecting = some s) (seen : p.visible s = some tracked)
    (away : p.fsmState ≠ .connect) (polled : tracked.pollNext stimulus = some (c, event))
    (early : c.state ≠ .openConfirm)
    (ran : runHandler
      (handleEvent out (p.policy.preHandleConnectionEventHook event).openMessage event) c =
        (c', stop))
    (goesOn : stop ≠ some .cancelled) :
    p.step (.tracked stimulus out outCease) =
      finish ((resolve s outCease (return none)).run
        { p with
          policy := p.policy.preHandleConnectionEventHook event
          trackedConnection := some c' }) := by
  have waits : p.step (.tracked stimulus out outCease) =
      match p.selecting with
      | some s => finish ((trackedEvent s stimulus out outCease).run p)
      | none => .ok (p, none) := by
    rw [step.eq_def]
    cases p.selecting <;> rfl
  rw [waits]
  simp only [busy]
  rw [trackedEvent, EStateM.run_bind, EStateM.run_get]
  simp only [seen, Option.bind_some, polled]
  rw [if_neg (not_or.mpr ⟨away, early⟩)]
  simp only [ran]
  rw [EStateM.run_bind, EStateM.run_set, if_neg goesOn, busy]

/-- An event on the main connection that is handled to its end. -/
theorem step_main_handles {p q : Peer} {s : Selecting} {main c c' : Connection}
    {stimulus : Stimulus} {event : ConnectionEvent} {out outCease : Sending}
    (busy : p.selecting = some s) (main_ : p.connection = some main)
    (polled : main.pollNext stimulus = some (c, event))
    (alone : checkConnectionCollision p.properties.myBgpId (some c) (p.visible s) = none)
    (ran : runHandler
      (handleEvent out (p.policy.preHandleConnectionEventHook event).openMessage event) c =
        (c', none))
    (after : { p with
      policy := p.policy.preHandleConnectionEventHook event
      connection := some c' }.afterEvent c' c.state event = .ok q) :
    p.step (.main stimulus out outCease) =
      .ok ({ q with selecting := none }, some (.connection event)) := by
  have handled : (handleConnectionEvent out event).run { p with connection := some c } =
      .ok (.connection event) q := by
    rw [handleConnectionEvent, EStateM.run_bind, EStateM.run_get]
    dsimp only
    rw [ran]
    simp only [EStateM.run_bind, EStateM.run_set]
    rw [after]
    rfl
  have unseen := resolve_of_none { p with connection := some c } outCease
    (some <$> handleConnectionEvent out event) alone
  rw [step_main out outCease busy main_ polled, unseen, EStateM.run_map, handled]
  rfl

/-- What a step has come to: its moves, with the notes taken before and after them. -/
def Stepped (p : Peer) (input : Input) : Except FsmStateError (Peer × Option BgpEvent) → Prop
  | .ok (q, event) =>
      ∃ waiting selecting waiting' selecting' q' answer,
        (p.noted waiting selecting).Moves p.waitingAdminEvents.getLast? input q' answer ∧
          q = q'.noted waiting' selecting' ∧
          (answer = .ok event ∨ answer = .error .cancelled ∧ event = none)
  | .error error =>
      ∃ waiting selecting q',
        (p.noted waiting selecting).Moves p.waitingAdminEvents.getLast? input q'
          (.error (.error error))

theorem stepped_finish {p : Peer} {input : Input} (waiting : List PeerAdminEvent)
    (selecting : Option Selecting) {result : EStateM.Result Stop Peer (Option BgpEvent)}
    (ended : Ended ((p.noted waiting selecting).Moves p.waitingAdminEvents.getLast? input) result) :
    p.Stepped input (finish result) := by
  rcases result with ⟨_ | event, q⟩ | ⟨error | _, q⟩
  · exact ⟨_, _, _, _, q, _, ended, rfl, .inl rfl⟩
  · exact ⟨_, _, q.waitingAdminEvents, none, q, _, ended, rfl, .inl rfl⟩
  · exact ⟨_, _, q, ended⟩
  · exact ⟨_, _, q.waitingAdminEvents, none, q, _, ended, rfl, .inr ⟨rfl, rfl⟩⟩

/-- A step that only takes notes. -/
theorem stepped_rests (p : Peer) (input : Input) (waiting : List PeerAdminEvent)
    (selecting : Option Selecting) : p.Stepped input (.ok (p.noted waiting selecting, none)) :=
  ⟨p.waitingAdminEvents, p.selecting, _, _, p, _, .rests input, rfl, .inl rfl⟩

/-- A step does what `Moves` says. -/
theorem step_stepped (p : Peer) (input : Input) : p.Stepped input (p.step input) := by
  have rests : p.Stepped input (.ok (p, none)) :=
    p.stepped_rests input p.waitingAdminEvents p.selecting
  have ended {result : EStateM.Result Stop Peer (Option BgpEvent)} :
      Ended (p.Moves p.waitingAdminEvents.getLast? input) result →
        p.Stepped input (finish result) :=
    stepped_finish p.waitingAdminEvents p.selecting
  cases input with
  | peerEvent admin => exact p.stepped_rests _ _ none
  | admin timing out outTracked =>
      cases busy : p.selecting with
      | some s => simpa only [step, busy] using rests
      | none =>
          simp only [step, busy]
          split
          · rename_i event due
            refine stepped_finish p.waitingAdminEvents.dropLast (some ⟨false, false⟩) ?_
            rw [due]
            exact runAdmin_moves _ timing out outTracked event
          · exact rests
  | wait =>
      cases busy : p.selecting with
      | some s => simpa only [step, busy] using rests
      | none =>
          simp only [step, busy]
          split
          · exact p.stepped_rests _ p.waitingAdminEvents (some ⟨false, false⟩)
          · exact rests
  | dial =>
      cases busy : p.selecting with
      | none => simpa only [step, busy] using rests
      | some s =>
          simp only [step, busy]
          split
          · rename_i ready
            exact ⟨p.waitingAdminEvents, p.selecting, p.waitingAdminEvents, _, _, _,
              .dials ready.1 ready.2, rfl, .inl rfl⟩
          · exact rests
  | dialed stream out =>
      cases busy : p.selecting with
      | none => simpa only [step, busy] using rests
      | some s =>
          simp only [step, busy]
          split
          · exact ended (.map (p.handleActiveConnection_moves _ stream out))
          · exact rests
  | connectRetryTick =>
      cases busy : p.selecting with
      | none => simpa only [step, busy] using rests
      | some s =>
          simp only [step, busy]
          split
          · rename_i running
            exact ⟨p.waitingAdminEvents, p.selecting, p.handleConnectRetryTick.waitingAdminEvents,
              none, _, _, .retries (Option.isSome_iff_ne_none.mp running), rfl, .inl rfl⟩
          · exact rests
  | main stimulus out outCease =>
      cases busy : p.selecting with
      | none => simpa only [step, busy] using rests
      | some s =>
          simp only [step, busy]
          exact ended (p.mainEvent_moves _ s stimulus out outCease)
  | tracked stimulus out outCease =>
      cases busy : p.selecting with
      | none => simpa only [step, busy] using rests
      | some s =>
          simp only [step, busy]
          exact ended (p.trackedEvent_moves _ s stimulus out outCease)

end Peer

end Erez.Speaker
