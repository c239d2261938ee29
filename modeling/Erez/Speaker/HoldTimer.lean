import Erez.Speaker.Safety

/-! # The hold timer

A hold time of zero is to mean that neither side watches the other. But the hold timer
runs from the moment the OPEN is sent, with a large value, and a negotiated time of zero
leaves it as it is. So a peer that does not delay its OPEN always has one.
-/

namespace Erez.Speaker

open Daemon Lib

/-! ## What it takes to have read an OPEN early -/

namespace Connection

/-- Without a delay timer no event says that there is one. -/
theorem pollNext_undelayed {c c' : Connection} {stimulus : Stimulus} {event : ConnectionEvent}
    (undelayed : c.openDelayTimer = none) (polled : c.pollNext stimulus = some (c', event)) :
    c'.openDelayTimer = none ∧ event ≠ .delayOpenTimerExpires ∧
      ∀ message, event ≠ .bgpOpenWithDelayOpenTimer message := by
  cases stimulus with
  | keepaliveTick | holdTick =>
      simp only [pollNext] at polled
      split at polled
      · cases polled
        exact ⟨undelayed, by simp, by simp⟩
      · cases polled
  | openDelayTick => simp [pollNext, undelayed] at polled
  | message message errors otherEor =>
      cases message with
      | openMsg theirs =>
          rw [pollNext, receive_openMsg, undelayed] at polled
          cases polled
          rcases handleOpenMessage_cases theirs c.peerAsn false with ⟨_, same⟩ | ⟨-, same⟩ <;>
            simp [same]
      | update update =>
          obtain ⟨event', -, same⟩ := Option.map_eq_some_iff.mp polled
          cases same
          refine ⟨undelayed, ?_, ?_⟩ <;> rcases event' with _ | _ | _ <;> simp [eventOfUpdate]
      | notification notif =>
          simp only [pollNext, receive] at polled
          split at polled <;> cases polled <;> exact ⟨undelayed, by simp, by simp⟩
      | _ =>
          cases polled
          exact ⟨undelayed, by simp, by simp⟩
  | undecodable error =>
      cases polled
      have plain := ConnectionEvent.isPlain_ofDecoderError error
      refine ⟨undelayed, ?_, fun message => ?_⟩ <;>
      · intro same
        rw [same] at plain
        cases plain
  | ended =>
      cases polled
      exact ⟨undelayed, by simp, by simp⟩

theorem startHoldTimer_timer (c : Connection) (large : c.config.holdTimerDurationLargeValue ≠ 0) :
    c.startHoldTimer.holdTimer ≠ none := by
  rw [startHoldTimer, if_pos large]
  exact Option.some_ne_none _

/-- What is negotiated starts a hold timer anew, and never stops one. -/
theorem negotiated_holdTimer {c : Connection} (timer : c.holdTimer ≠ none)
    (theirs : BgpOpenMessage) : (c.negotiated theirs).holdTimer ≠ none := by
  obtain ⟨_, _, same⟩ :=
    setNegotiatedTimers_eq ({ c with openDelayTimer := none }.readOpenMsg theirs)
  rw [negotiated, same, startNegotiatedTimers]
  dsimp only
  split
  · exact Option.some_ne_none _
  · exact timer

@[simp] theorem startSend_holdTimer (c : Connection) (message : BgpMessage) :
    (c.startSend message).holdTimer = c.holdTimer := by
  cases message <;> rfl

@[simp] theorem inState_holdTimer (c : Connection) (state : ConnectionState) :
    (c.inState state).holdTimer = c.holdTimer :=
  rfl

/-- The connection is open, and has not ended. -/
def IsOpen (c : Connection) : Prop :=
  c.state = .openSent ∨ c.state = .openConfirm ∨ c.state = .established

/-- The hold timer of a connection that does not delay its OPEN. -/
structure Watched (config : PeerConfig) (c : Connection) : Prop where
  config : c.config = config
  undelayed : c.openDelayTimer = none
  timer : c.IsOpen → c.holdTimer ≠ none

end Connection

open Connection

theorem Offered.frame {c c' : Connection} {message : BgpMessage} (offered : Offered c message c') :
    c'.state = c.state ∧ c'.openDelayTimer = c.openDelayTimer ∧ c'.holdTimer = c.holdTimer := by
  rcases offered with rfl | rfl <;> simp

theorem Connection.Watched.polls {config : PeerConfig} {c c' : Connection} {stimulus : Stimulus}
    {event : ConnectionEvent} (watched : c.Watched config)
    (polled : c.pollNext stimulus = some (c', event)) :
    c'.Watched config ∧ event ≠ .delayOpenTimerExpires ∧
      ∀ message, event ≠ .bgpOpenWithDelayOpenTimer message := by
  obtain ⟨undelayed, early⟩ := pollNext_undelayed watched.undelayed polled
  obtain ⟨_, _, _, rfl⟩ := pollNext_frame polled
  exact ⟨⟨watched.config, undelayed, watched.timer⟩, early⟩

theorem Connection.Watched.offered {config : PeerConfig} {c c' : Connection} {message : BgpMessage}
    (watched : c.Watched config) (offered : Offered c message c') : c'.Watched config := by
  obtain ⟨state, delay, timer⟩ := offered.frame
  refine ⟨offered.config.trans watched.config, delay.trans watched.undelayed, fun open_ => ?_⟩
  rw [timer]
  refine watched.timer ?_
  rw [IsOpen, ← state]
  exact open_

theorem Connection.Watched.handled {config : PeerConfig} {ours : BgpOpenMessage}
    {c c' : Connection} {event : ConnectionEvent} {stop : Option Stop}
    (delay : config.openDelayTimerDuration = 0) (large : config.holdTimerDurationLargeValue ≠ 0)
    (watched : c.Watched config) (prompt : event ≠ .delayOpenTimerExpires)
    (early : ∀ message, event ≠ .bgpOpenWithDelayOpenTimer message)
    (handled : Handled ours c event c' stop) : c'.Watched config := by
  have config_ := handled.config.trans watched.config
  have large_ : c.config.holdTimerDurationLargeValue ≠ 0 := by rwa [watched.config]
  cases handled with
  | quiet => exact watched
  | waits at_ tcp delayed =>
      rw [watched.config] at delayed
      exact absurd delay delayed
  | opens => exact ⟨config_, by simp [watched.undelayed], fun _ => by simp [startHoldTimer_timer, *]⟩
  | openStopped at_ h offered =>
      obtain ⟨state, undelayed, timer⟩ := offered.frame
      exact ⟨config_, by simp [undelayed, watched.undelayed],
        fun _ => by simp [startHoldTimer_timer, *]⟩
  | answers message at_ => exact absurd rfl (early message)
  | answerStopped at_ offered => exact absurd rfl (early _)
  | confirms message at_ =>
      refine ⟨config_, by simp, fun _ => ?_⟩
      simpa using negotiated_holdTimer (watched.timer (.inl at_)) message
  | confirmStopped at_ offered =>
      obtain ⟨state, undelayed, timer⟩ := offered.frame
      refine ⟨config_, by simp [undelayed], fun _ => ?_⟩
      rw [timer]
      exact negotiated_holdTimer (watched.timer (.inl at_)) _
  | keepsAlive => exact watched.offered (.inr rfl)
  | keepAliveStopped at_ offered => exact watched.offered offered
  | establishes at_ => exact ⟨config_, watched.undelayed, fun _ => watched.timer (.inr (.inl at_))⟩
  | ends fatal notified =>
      obtain ⟨notif, offered⟩ := notified
      refine ⟨config_, (watched.offered offered).undelayed, ?_⟩
      rintro (⟨⟨⟩⟩ | ⟨⟨⟩⟩ | ⟨⟨⟩⟩)
  | endStopped fatal notified =>
      obtain ⟨notif, offered⟩ := notified
      exact watched.offered offered
  | endStoppedLate at_ notified =>
      obtain ⟨notif, offered⟩ := notified
      obtain ⟨state, undelayed, -⟩ := offered.frame
      refine ⟨config_, undelayed.trans watched.undelayed, fun open_ => ?_⟩
      rw [IsOpen, state] at open_
      rcases open_ with h | h | h <;> cases h

namespace Peer

theorem watched_stable (properties : PeerProperties) {config : PeerConfig}
    (delay : config.openDelayTimerDuration = 0) (large : config.holdTimerDurationLargeValue ≠ 0) :
    Stable (fun _ => True) (Connection.Watched config) properties config where
  arrives type timing event c ours _ tcp handled := by
    have new_ : (Connection.new properties type config timing).Watched config := by
      refine ⟨rfl, rfl, ?_⟩
      rintro (⟨⟨⟩⟩ | ⟨⟨⟩⟩ | ⟨⟨⟩⟩)
    refine new_.handled delay large ?_ ?_ handled <;> rcases tcp with rfl | rfl <;> simp
  polled c stimulus c' event watched polled := (watched.polls polled).1
  handled c stimulus c' event c'' ours stop _ watched polled handled := by
    obtain ⟨watched', prompt, early⟩ := watched.polls polled
    exact watched'.handled delay large prompt early handled
  notified c c' watched notified := by
    obtain ⟨notif, offered⟩ := notified
    exact watched.offered offered

variable {p : Peer}

theorem run_watched {properties : PeerProperties} {config : PeerConfig}
    {policy : EchoCapabilitiesPolicy} {inputs : List Input}
    (delay : config.openDelayTimerDuration = 0) (large : config.holdTimerDurationLargeValue ≠ 0)
    (run : inputs.foldlM next (new properties config policy) = .ok p) :
    p.Holds (Connection.Watched config) :=
  run_holds (watched_stable properties delay large) (fun _ => True)
    (fun _ _ => ⟨trivial, fun _ => trivial⟩) (fun _ _ _ => trivial) trivial run

/-- When the hold timer runs out, the connection has ended and says so. -/
theorem holdTick_terminates {out : Sending} (delivers : out.Delivers) (ours : BgpOpenMessage)
    {c : Connection} (open_ : c.IsOpen) :
    runHandler (handleEvent out ours .holdTimerExpires) c =
      ((c.startSend holdTimerExpired).inState .terminate, none) := by
  rcases open_ with at_ | at_ | at_
  · simp only [runHandler, handleEvent, handleOpenSentEvent, Handler.bind_apply,
      Handler.get_apply, at_, Handler.send_delivers delivers, Handler.setState_apply,
      Handler.pure_apply]
  · simp only [runHandler, handleEvent, handleOpenConfirmEvent, Handler.bind_apply,
      Handler.get_apply, at_, Handler.send_delivers delivers, Handler.setState_apply,
      Handler.pure_apply]
    rfl
  · simp only [runHandler, handleEvent, handleEstablishedEvent, Handler.bind_apply,
      Handler.get_apply, at_, Handler.trySend_delivers delivers, Handler.setState_apply,
      Handler.pure_apply]

theorem afterEvent_holdTimerExpires (p : Peer) {c d : Connection} (open_ : c.IsOpen)
    (ended : d.state = .terminate) :
    ∃ q, p.afterEvent d c.state .holdTimerExpires = .ok q ∧ q.connection = none ∧
      q.fsmState = .idle := by
  rw [afterEvent.eq_def]
  rcases open_ with at_ | at_ | at_ <;>
  · rw [at_, ended]
    exact ⟨_, rfl, rfl, rfl⟩

/-- No peer can do without the hold timer of a speaker that does not delay its OPEN: whatever
    hold time the two have agreed on, zero as well, each of its connections that is open has a
    timer, and when that runs out the session is over. -/
theorem hold_timer_always_ends {properties : PeerProperties} {config : PeerConfig}
    {policy : EchoCapabilitiesPolicy} {inputs : List Input}
    (delay : config.openDelayTimerDuration = 0) (large : config.holdTimerDurationLargeValue ≠ 0)
    (run : inputs.foldlM next (new properties config policy) = .ok p) {c : Connection}
    (main_ : p.connection = some c) (open_ : c.IsOpen) {s : Selecting}
    (busy : p.selecting = some s)
    (alone : checkConnectionCollision p.properties.myBgpId (some c) (p.visible s) = none)
    {out : Sending} (delivers : out.Delivers) (outCease : Sending) :
    ∃ q, p.step (.main .holdTick out outCease) = .ok (q, some (.connection .holdTimerExpires)) ∧
      q.connection = none ∧ q.fsmState = .idle := by
  have watched := (run_watched delay large run).1 c main_
  have polled : c.pollNext .holdTick = some (c, .holdTimerExpires) :=
    if_pos (Option.isSome_iff_ne_none.mpr (watched.timer open_))
  have ran := holdTick_terminates delivers
    (p.policy.preHandleConnectionEventHook .holdTimerExpires).openMessage open_
  obtain ⟨q, after, gone, idle⟩ := afterEvent_holdTimerExpires
    { p with
      policy := p.policy.preHandleConnectionEventHook .holdTimerExpires
      connection := some ((c.startSend holdTimerExpired).inState .terminate) } open_
    (inState_state (c.startSend holdTimerExpired) .terminate)
  exact ⟨_, step_main_handles busy main_ polled alone ran after, gone, idle⟩

theorem exampleSession_held :
    ∃ p q, (exampleSession ++ [Input.wait]).foldlM next
        (new exampleProperties .default examplePolicy) = .ok p ∧
      p.step (.main .holdTick allSent allSent) =
        .ok (q, some (.connection .holdTimerExpires)) ∧
      q.connection = none ∧ q.fsmState = .idle := by
  obtain ⟨q, ended⟩ := hold_timer_always_ends (by decide) (by decide)
    (show (exampleSession ++ [Input.wait]).foldlM next
      (new exampleProperties .default examplePolicy) = .ok _ from rfl)
    rfl (.inr (.inr rfl)) rfl rfl allSent_delivers allSent
  exact ⟨_, q, rfl, ended⟩

end Peer

end Erez.Speaker
