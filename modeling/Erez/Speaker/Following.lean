import Erez.Speaker.Safety

/-! # The machine and its connection

A peer keeps the state of the machine apart from the state of its main connection.
Where nothing is dropped in the middle of a farewell and no start comes on top of a
connection, the two agree, and the retry timer runs only without a connection.
-/

namespace Erez.Speaker

open Daemon Lib

/-- The main connection, if there is one, stands where the machine says. -/
def Agrees (fsm : FsmState) : Option ConnectionState → Prop
  | none | some .connected => fsm = .idle ∨ fsm = .connect ∨ fsm = .active
  | some .openSent => fsm = .openSent
  | some .openConfirm => fsm = .openConfirm
  | some .established => fsm = .established
  -- A connection that has ended is still there only where its last message was dropped.
  | some .terminate => fsm = .openConfirm

theorem Agrees.of_fsmState? {fsm : FsmState} {state : ConnectionState}
    (reached : state.fsmState? = some fsm) : Agrees fsm (some state) := by
  cases state with
  | connected | terminate => cases reached
  | openSent | openConfirm | established =>
      cases reached
      rfl

/-- Where a handler stops early the connection stays where it was, or its last message
    was on its way. -/
theorem Handled.stopped_state {ours : BgpOpenMessage} {c c' : Connection} {event : ConnectionEvent}
    {stop : Stop} (handled : Handled ours c event c' (some stop)) :
    c'.state = c.state ∨ c.state = .openConfirm ∧ c'.state = .terminate := by
  have offers {d d' : Connection} {message : BgpMessage} (offered : Offered d message d') :
      d'.state = d.state := by
    rcases offered with rfl | rfl
    · rfl
    · exact Connection.startSend_state d message
  cases handled with
  | openStopped at_ h offered => exact .inl (by simpa using offers offered)
  | answerStopped at_ offered =>
      rcases offered with offered | offered
      · exact .inl (by simpa using offers offered)
      · exact .inl (by simpa using offers offered)
  | confirmStopped at_ offered => exact .inl (by simpa using offers offered)
  | keepAliveStopped at_ offered => exact .inl (offers offered)
  | endStopped fatal notified =>
      obtain ⟨_, offered⟩ := notified
      exact .inl (offers offered)
  | endStoppedLate at_ notified =>
      obtain ⟨_, offered⟩ := notified
      exact .inr ⟨at_, offers offered⟩

theorem Notified.state {c c' : Connection} (notified : Notified c c') : c'.state = c.state := by
  obtain ⟨notif, rfl | rfl⟩ := notified
  · rfl
  · exact Connection.startSend_state c _

theorem Handled.state_ne_established {ours : BgpOpenMessage} {c c' : Connection}
    {event : ConnectionEvent} {stop : Option Stop} (handled : Handled ours c event c' stop)
    (early : c.state ≠ .openConfirm) (waits : c.state ≠ .established) :
    c'.state ≠ .established := by
  cases stop with
  | some stop =>
      rcases handled.stopped_state with same | ⟨confirming, -⟩
      · exact same ▸ waits
      · exact absurd confirming early
  | none =>
      cases handled with
      | quiet | waits => exact waits
      | opens | answers | confirms | ends => simp
      | keepsAlive at_ => exact absurd at_ (not_or.mpr ⟨early, waits⟩)
      | establishes at_ => exact absurd at_ early

/-- A new connection waits for the delay timer, or has sent its OPEN. -/
theorem Handled.new_state {ours : BgpOpenMessage} {c c' : Connection} {event : ConnectionEvent}
    (handled : Handled ours c event c' none) (tcp : event.IsTcp) (at_ : c.state = .connected) :
    c'.state = .connected ∨ c'.state = .openSent := by
  cases handled with
  | quiet => exact .inl at_
  | waits => exact .inl at_
  | opens => exact .inr rfl
  | answers | confirms | keepsAlive | establishes => rcases tcp with h | h <;> cases h
  | ends fatal notified =>
      rw [at_] at fatal
      cases fatal with
      | connected timer loud => exact absurd tcp loud

namespace Peer

variable {p q : Peer} {out : Sending} {due : Option PeerAdminEvent} {input : Input}
  {answer : Except Stop (Option BgpEvent)}

structure Follows (p : Peer) : Prop where
  agrees : Agrees p.fsmState (p.connection.map (·.state))
  timer : p.connection ≠ none → p.connectRetryTimer = none

/-- No start takes effect on top of a connection, no farewell to a main connection is dropped
    on its way. -/
def Calm (p : Peer) (due : Option PeerAdminEvent) : Input → Prop
  | .admin _ out _ => ∀ admin, due = some admin →
      (admin.IsStart → p.fsmState = .idle → p.connection = none) ∧ (admin.IsStop → out.Lasts)
  | .main _ _ outCease | .tracked _ _ outCease => outCease.Lasts
  | _ => True

theorem new_follows (properties : PeerProperties) (config : PeerConfig)
    (policy : EchoCapabilitiesPolicy) : (new properties config policy).Follows where
  agrees := .inl rfl
  timer some := absurd rfl some

theorem Resolves.follows (resolves : p.Resolves out q answer) (lasts : out.Lasts)
    (follows : p.Follows) (going : ∀ error, answer ≠ .error (.error error)) : q.Follows := by
  cases resolves with
  | @promotes main tracked after collides state =>
      refine ⟨?_, fun _ => follows.timer (by simp [collides.main_])⟩
      simp only [fsmStateFromTracked] at state
      change Agrees after (some tracked.state)
      split at state <;> cases state <;> simp_all [Agrees]
  | loses collides state dropped => exact absurd lasts dropped
  | breaks => exact absurd rfl (going _)
  | dismisses | dismissalStopped | mismatches => exact ⟨follows.agrees, follows.timer⟩

theorem Moves.follows (moves : p.Moves due input q answer) (calm : p.Calm due input)
    (follows : p.Follows) (going : ∀ error, answer ≠ .error (.error error)) : q.Follows := by
  obtain ⟨agrees, timer⟩ := follows
  have opening : p.connection = none →
      p.fsmState = .idle ∨ p.fsmState = .connect ∨ p.fsmState = .active := by
    intro none_
    rw [none_] at agrees
    exact agrees
  have polls {main c : Connection} {stimulus : Stimulus} {event : ConnectionEvent}
      (main_ : p.connection = some main) (polled : main.pollNext stimulus = some (c, event)) :
      Agrees p.fsmState (some c.state) := by
    obtain ⟨_, _, _, rfl⟩ := Connection.pollNext_frame polled
    rw [main_] at agrees
    exact agrees
  cases moves with
  | rests | dials => exact ⟨agrees, timer⟩
  | retries running =>
      obtain ⟨fsmState, _, moved, same⟩ := p.handleConnectRetryTick_eq
      have none_ : p.connection = none := by
        by_contra some
        exact running (timer some)
      rw [same]
      refine ⟨?_, fun some => absurd rfl some⟩
      rcases moved with rfl | ⟨-, rfl⟩
      · exact opening none_
      · exact .inr (.inl rfl)
  | starts due_ start idle =>
      obtain ⟨fsmState, _, moved, same⟩ := started_eq idle
      have none_ := (calm _ due_).1 start idle
      rw [same]
      refine ⟨?_, fun some => absurd none_ some⟩
      change Agrees fsmState (p.connection.map _)
      rw [none_]
      exact .inr moved.symm
  | stops => exact ⟨.inl rfl, fun some => absurd rfl some⟩
  | stopInterrupted due_ stop main_ dropped => exact absurd ((calm _ due_).2 stop) dropped
  | stopInterruptedLate => exact ⟨.inl rfl, fun some => absurd rfl some⟩
  | @adds _ _ _ _ _ c arrives handled =>
      rcases addConnection_cases p.takeRetryTimer c with ⟨_, -, same⟩ | ⟨_, none_, rfl, same⟩
      · rw [same]
        exact ⟨agrees, fun _ => rfl⟩
      · rw [same]
        refine ⟨?_, fun _ => rfl⟩
        change Agrees _ (some c.state)
        rcases handled.new_state arrives.isTcp rfl with at_ | at_
        · rw [at_]
          exact opening none_
        · rw [at_]
          rfl
  | addStopped | refused => exact ⟨agrees, fun _ => rfl⟩
  | handles main_ polled handled after =>
      have before := polls main_ polled
      have still : p.connectRetryTimer = none := timer (by simp [main_])
      cases afterEvent_followed after with
      | stays same t ht =>
          refine ⟨?_, fun _ => by simpa [still] using ht⟩
          simpa [same] using before
      | advances reached t ht => exact ⟨.of_fsmState? reached, fun _ => by simpa [still] using ht⟩
      | ends down =>
          refine ⟨?_, fun some => absurd rfl some⟩
          rcases down with rfl | rfl
          · exact .inl rfl
          · exact .inr (.inr rfl)
  | invalid => exact absurd rfl (going _)
  | handlingStopped main_ polled handled =>
      have before := polls main_ polled
      refine ⟨?_, fun _ => timer (by simp [main_])⟩
      rcases handled.stopped_state with same | ⟨confirming, ended⟩
      · simpa [same] using before
      · rw [confirming] at before
        simpa [ended, Agrees] using before
  | resolves main_ polled resolved =>
      refine resolved.follows calm ⟨polls main_ polled, fun _ => timer (by simp [main_])⟩ going
  | tracks => exact ⟨agrees, timer⟩
  | tracksResolves tracked_ away early polled handled resolved =>
      exact resolved.follows calm ⟨agrees, timer⟩ going

/-- The step is calm where the peer is. -/
def Undisturbed (p : Peer) (input : Input) : Prop :=
  p.Calm p.waitingAdminEvents.getLast? input

theorem next_follows (undisturbed : p.Undisturbed input) (follows : p.Follows)
    (h : p.next input = .ok q) : q.Follows := by
  obtain ⟨waiting, selecting, _, _, q', answer, moves, rfl, going⟩ := next_moves h
  have follows' : (p.noted waiting selecting).Follows := ⟨follows.agrees, follows.timer⟩
  have followed := moves.follows (by cases input <;> exact undisturbed) follows' going
  exact ⟨followed.agrees, followed.timer⟩

theorem exampleRoute_undisturbed :
    Along (fun p input q => p.next input = .ok q) Undisturbed
      (new exampleProperties .default examplePolicy) exampleRoute :=
  .cons_ok trivial rfl <| .cons_ok (fun _ _ => ⟨fun _ _ => rfl, fun _ => allSent_lasts⟩) rfl <|
    .cons_ok trivial rfl <| .cons_ok trivial rfl <| .cons_ok trivial rfl <|
    .cons_ok trivial rfl <| .cons_ok allSent_lasts rfl <| .cons_ok trivial rfl <|
    .cons_ok allSent_lasts rfl <| .cons_ok trivial rfl <| .cons_ok allSent_lasts rfl trivial

/-- Along an undisturbed run the machine stands where its main connection does. -/
theorem machine_follows_connection (properties : PeerProperties) (config : PeerConfig)
    (policy : EchoCapabilitiesPolicy) {inputs : List Input}
    (undisturbed : Along (fun p input q => p.next input = .ok q) Undisturbed
      (new properties config policy) inputs)
    (run : inputs.foldlM next (new properties config policy) = .ok p) : p.Follows :=
  undisturbed.invariant Follows (fun _ _ _ follows here stepped => next_follows here follows stepped)
    (new_follows properties config policy) run

theorem exampleRoute_follows :
    ∃ p, exampleRoute.foldlM next (new exampleProperties .default examplePolicy) = .ok p ∧
      p.fsmState = .established ∧ p.Follows :=
  ⟨_, rfl, rfl, machine_follows_connection exampleProperties .default examplePolicy
    exampleRoute_undisturbed rfl⟩

/-! ## What ends the task -/

theorem polled_not_isTcp {c c' : Connection} {stimulus : Stimulus} {event : ConnectionEvent}
    (polled : c.pollNext stimulus = some (c', event)) : ¬ event.IsTcp := by
  cases stimulus with
  | keepaliveTick | openDelayTick | holdTick =>
      simp only [Connection.pollNext] at polled
      split at polled <;> cases polled
      simp [ConnectionEvent.IsTcp]
  | message message errors otherEor =>
      cases message with
      | openMsg theirs =>
          rw [Connection.pollNext, Connection.receive_openMsg] at polled
          cases polled
          rcases Connection.handleOpenMessage_cases theirs c.peerAsn c.openDelayTimer.isSome with
            ⟨error, refused⟩ | ⟨-, accepted⟩
          · simp [refused, ConnectionEvent.IsTcp]
          · rw [accepted]
            split <;> simp [ConnectionEvent.IsTcp]
      | update update =>
          obtain ⟨event', -, same⟩ := Option.map_eq_some_iff.mp polled
          cases same
          rcases event' with _ | _ | _ <;> simp [Connection.eventOfUpdate, ConnectionEvent.IsTcp]
      | notification notif =>
          simp only [Connection.pollNext, Connection.receive] at polled
          split at polled <;> cases polled <;> simp [ConnectionEvent.IsTcp]
      | _ =>
          cases polled
          simp [ConnectionEvent.IsTcp]
  | undecodable error =>
      cases polled
      intro tcp
      have plain := ConnectionEvent.isPlain_ofDecoderError error
      rcases tcp with same | same <;> rw [same] at plain <;> cases plain
  | ended =>
      cases polled
      simp [ConnectionEvent.IsTcp]

theorem fsmStateFromTracked_error {fsmState : FsmState} {tracked : Connection}
    {error : FsmStateError} (h : fsmStateFromTracked fsmState tracked = .error error) :
    (tracked.state = .connected ∨ tracked.state = .terminate) ∧
      error = .invalidConnectionStateTransition .openCollisionDump fsmState tracked.state
        tracked.state := by
  rw [fsmStateFromTracked] at h
  split at h <;> cases h <;> simp [*]

/-- A second connection was to take over before it had sent its OPEN, or after its end. -/
def TookOver (p : Peer) (error : FsmStateError) : Prop :=
  p.connection ≠ none ∧ p.trackedConnection ≠ none ∧
    ∃ state, (state = .connected ∨ state = .terminate) ∧
      error = .invalidConnectionStateTransition .openCollisionDump p.fsmState state state

theorem Resolves.tookOver {error : FsmStateError}
    (resolves : p.Resolves out q (.error (.error error))) : p.TookOver error := by
  cases resolves with
  | breaks collides state =>
      obtain ⟨stuck, same⟩ := fsmStateFromTracked_error state
      exact ⟨by simp [collides.main_], by simp [collides.tracked_], _, stuck, same⟩

/-- What can end the task: a message that could not be written, an event on a connection
    that had ended before, or a collision. -/
theorem step_error {error : FsmStateError} (h : p.step input = .error error) :
    error = .bgpMessageWritingError ∨
      (∃ main, p.connection = some main ∧ main.state = .terminate) ∨ p.TookOver error := by
  have moves := p.step_stepped input
  rw [h] at moves
  obtain ⟨_, _, q, moves⟩ := moves
  cases moves with
  | addStopped arrives kind =>
      obtain ⟨same, -⟩ := kind.resolve_right (by rintro ⟨⟨⟩, -⟩)
      cases same
      exact .inl rfl
  | @invalid _ _ _ main c c' event _ main_ polled handled after =>
      refine .inr (.inl ⟨main, main_, ?_⟩)
      obtain ⟨_, _, _, rfl⟩ := Connection.pollNext_frame polled
      by_contra live
      obtain ⟨q, valid⟩ := afterEvent_valid _ handled (polled_not_isTcp polled) live
      rw [valid] at after
      cases after
  | handlingStopped main_ polled handled kind =>
      obtain ⟨same, -⟩ := kind.resolve_right (by rintro ⟨⟨⟩, -⟩)
      cases same
      exact .inl rfl
  | resolves main_ polled resolved =>
      obtain ⟨-, tracked, stuck⟩ := resolved.tookOver
      exact .inr (.inr ⟨Option.ne_none_iff_exists'.mpr ⟨_, main_⟩, tracked, stuck⟩)
  | tracksResolves tracked_ away early polled handled resolved =>
      obtain ⟨main, -, stuck⟩ := resolved.tookOver
      exact .inr (.inr ⟨main, Option.ne_none_iff_exists'.mpr ⟨_, tracked_⟩, stuck⟩)

/-- The main connection has not ended. -/
def Live (p : Peer) : Prop :=
  ∀ main, p.connection = some main → main.state ≠ .terminate

/-- No message of a handler on the main connection is dropped on its way. -/
def Uninterrupted : Input → Prop
  | .main _ out _ => out.Lasts
  | _ => True

theorem Resolves.live (resolves : p.Resolves out q answer) (live : p.Live)
    (going : ∀ error, answer ≠ .error (.error error)) : q.Live := by
  cases resolves with
  | promotes collides state =>
      rintro _ ⟨⟩ ended
      simp [fsmStateFromTracked, ended] at state
  | loses => rintro _ ⟨⟩
  | breaks => exact absurd rfl (going _)
  | dismisses | dismissalStopped | mismatches => exact live

theorem Moves.live (moves : p.Moves due input q answer) (uninterrupted : Uninterrupted input)
    (live : p.Live) (going : ∀ error, answer ≠ .error (.error error)) : q.Live := by
  have polls {main c : Connection} {stimulus : Stimulus} {event : ConnectionEvent}
      (main_ : p.connection = some main) (polled : main.pollNext stimulus = some (c, event)) :
      c.state ≠ .terminate := by
    obtain ⟨_, _, _, rfl⟩ := Connection.pollNext_frame polled
    exact live main main_
  cases moves with
  | rests | dials | addStopped | refused | tracks => exact live
  | retries =>
      obtain ⟨_, _, -, same⟩ := p.handleConnectRetryTick_eq
      rw [same]
      rintro _ ⟨⟩
  | starts due_ start idle =>
      obtain ⟨_, _, -, same⟩ := started_eq idle
      rw [same]
      exact live
  | stops | stopInterruptedLate => rintro _ ⟨⟩
  | @stopInterrupted _ _ _ _ main main' due_ stop main_ dropped notified =>
      rintro _ ⟨⟩
      obtain ⟨_, rfl | rfl⟩ := notified
      · exact live _ main_
      · simpa using live _ main_
  | @adds _ _ _ _ _ c arrives handled =>
      rcases addConnection_cases p.takeRetryTimer c with ⟨_, -, same⟩ | ⟨_, -, -, same⟩
      · rw [same]
        exact live
      · rw [same]
        rintro _ ⟨⟩
        rcases handled.new_state arrives.isTcp rfl with at_ | at_ <;> simp [at_]
  | handles main_ polled handled after =>
      have before := polls main_ polled
      cases afterEvent_followed after with
      | stays same =>
          rintro _ ⟨⟩
          exact same ▸ before
      | advances reached =>
          rintro _ ⟨⟩ ended
          rw [ended] at reached
          cases reached
      | ends => rintro _ ⟨⟩
  | invalid => exact absurd rfl (going _)
  | handlingStopped main_ polled handled kind =>
      rcases kind with ⟨rfl, -⟩ | ⟨-, dropped⟩
      · exact absurd rfl (going _)
      · exact absurd uninterrupted dropped
  | resolves main_ polled resolved =>
      refine resolved.live ?_ going
      rintro _ ⟨⟩
      exact polls main_ polled
  | tracksResolves tracked_ away early polled handled resolved => exact resolved.live live going

/-- Where no handler on the main connection is dropped in the middle of a message, nothing
    ends the task but a message that could not be written and a collision. -/
theorem task_ends (properties : PeerProperties) (config : PeerConfig)
    (policy : EchoCapabilitiesPolicy) {inputs : List Input}
    (uninterrupted : ∀ i ∈ inputs, Uninterrupted i)
    (run : inputs.foldlM next (new properties config policy) = .ok p) (input : Input)
    {error : FsmStateError} (h : p.step input = .error error) :
    error = .bgpMessageWritingError ∨ p.TookOver error := by
  have live : p.Live := by
    refine (Along.of_inputs _ uninterrupted).invariant Live ?_ (by rintro _ ⟨⟩) run
    intro p input q live here stepped
    obtain ⟨_, _, _, _, q', answer, moves, rfl, going⟩ := next_moves stepped
    exact moves.live here live going
  rcases step_error h with written | ⟨main, main_, ended⟩ | tookOver
  · exact .inl written
  · exact absurd ended (live main main_)
  · exact .inr tookOver

/-- The KEEPALIVE that answers the OPEN cannot be written. -/
theorem exampleOpenSent_ends :
    ∃ p, exampleOpenSent.foldlM next (new exampleProperties .default examplePolicy) = .ok p ∧
      (FsmStateError.bgpMessageWritingError = .bgpMessageWritingError ∨
        p.TookOver .bgpMessageWritingError) := by
  have uninterrupted : ∀ input ∈ exampleOpenSent, Uninterrupted input := by
    intro input member
    simp only [exampleOpenSent, exampleDial, List.cons_append, List.nil_append, List.mem_cons,
      List.not_mem_nil, or_false] at member
    rcases member with rfl | rfl | rfl | rfl | rfl | rfl <;> trivial
  exact ⟨_, rfl, task_ends exampleProperties .default examplePolicy uninterrupted rfl
    (.main (.message (.openMsg theirOpen) [] none) (fun _ => .failed false) allSent) rfl⟩

end Peer

end Erez.Speaker
