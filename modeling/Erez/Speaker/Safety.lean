import Erez.Lib.Run
import Erez.Speaker.AfterEvent
import Erez.Speaker.Moves

/-! # The connections of a peer

What every connection of a peer has, the main one and the tracked one, whatever the
world does and in whatever order: administrative events, timers, messages that cannot
be written, steps that are dropped, and collisions.
-/

namespace Erez.Speaker

open Daemon Lib

/-! ## Frames -/

namespace Connection

@[simp] theorem startHoldTimer_config (c : Connection) : c.startHoldTimer.config = c.config := by
  obtain ⟨_, _, same⟩ := c.startHoldTimer_eq
  rw [same]

@[simp] theorem negotiated_config (c : Connection) (theirs : BgpOpenMessage) :
    (c.negotiated theirs).config = c.config := by
  obtain ⟨_, _, _, _, same⟩ := c.negotiated_eq theirs
  rw [same]

@[simp] theorem inState_config (c : Connection) (state : ConnectionState) :
    (c.inState state).config = c.config :=
  rfl

end Connection

open Connection

theorem Offered.config {c c' : Connection} {message : BgpMessage} (offered : Offered c message c') :
    c'.config = c.config := by
  rcases offered with rfl | rfl
  · rfl
  · exact startSend_config c message

theorem Notified.config {c c' : Connection} (notified : Notified c c') : c'.config = c.config := by
  obtain ⟨notif, offered⟩ := notified
  exact offered.config

theorem Handled.config {ours : BgpOpenMessage} {c c' : Connection} {event : ConnectionEvent}
    {stop : Option Stop} (handled : Handled ours c event c' stop) : c'.config = c.config := by
  cases handled with
  | quiet | waits => rfl
  | opens => simp
  | openStopped at_ h offered => simpa using offered.config
  | answers => simp
  | answerStopped at_ offered => rcases offered with offered | offered <;> simpa using offered.config
  | confirms => simp
  | confirmStopped at_ offered => simpa using offered.config
  | keepsAlive => simp
  | keepAliveStopped at_ offered => exact offered.config
  | establishes => rfl
  | ends fatal notified => simpa using notified.config
  | endStopped fatal notified => exact notified.config
  | endStoppedLate at_ notified => simpa using notified.config

namespace Connection

/-- What comes of the stream changes little: the delay timer has run out, or a message
    was noted. -/
theorem pollNext_frame {c c' : Connection} {stimulus : Stimulus} {event : ConnectionEvent}
    (polled : c.pollNext stimulus = some (c', event)) :
    ∃ openDelayTimer stats peerBgpId, c' = { c with openDelayTimer, stats, peerBgpId } := by
  cases stimulus with
  | keepaliveTick | holdTick =>
      simp only [pollNext] at polled
      split at polled
      · cases polled
        exact ⟨_, _, _, rfl⟩
      · cases polled
  | openDelayTick =>
      simp only [pollNext] at polled
      split at polled
      · cases polled
        exact ⟨_, _, _, rfl⟩
      · cases polled
  | message message errors otherEor =>
      cases message with
      | update update =>
          obtain ⟨event', -, same⟩ := Option.map_eq_some_iff.mp polled
          cases same
          exact ⟨_, _, _, rfl⟩
      | notification notif =>
          simp only [pollNext, receive] at polled
          split at polled
          · cases polled
            exact ⟨_, _, _, rfl⟩
          · cases polled
            exact ⟨_, _, _, rfl⟩
      | _ =>
          cases polled
          exact ⟨_, _, _, rfl⟩
  | undecodable | ended =>
      cases polled
      exact ⟨_, _, _, rfl⟩

end Connection

/-! ## The invariant rule -/

/-- What a peer asks of the AS number of a connection. -/
def PeerProperties.expectedAsn (properties : PeerProperties) : Option UInt32 :=
  if properties.allowDynamicAs then none else some properties.peerAsn

/-- Whatever comes next, the policy answers an OPEN as `G` says. -/
structure EchoCapabilitiesPolicy.Asks (G : BgpOpenMessage → Prop)
    (policy : EchoCapabilitiesPolicy) : Prop where
  now : G policy.openMessage
  later : ∀ event, G (policy.preHandleConnectionEventHook event).openMessage

namespace Peer

open Connection (new_sound new_polled pollNext_frame)

/-- Every connection of the peer has it. -/
def Holds (I : Connection → Prop) (p : Peer) : Prop :=
  (∀ c, p.connection = some c → I c) ∧ ∀ c, p.trackedConnection = some c → I c

/-- A property that comes with a new connection and stays with it, where the OPENs that the
    policy answers are as `G` says. -/
structure Stable (G : BgpOpenMessage → Prop) (I : Connection → Prop) (properties : PeerProperties)
    (config : PeerConfig) : Prop where
  arrives : ∀ type timing event c ours, G ours → event.IsTcp →
    Handled ours (.new properties type config timing) event c none → I c
  polled : ∀ c stimulus c' event, I c → c.pollNext stimulus = some (c', event) → I c'
  handled : ∀ c stimulus c' event c'' ours stop, G ours → I c →
    c.pollNext stimulus = some (c', event) → Handled ours c' event c'' stop → I c''
  notified : ∀ c c', I c → Notified c c' → I c'

variable {I : Connection → Prop} {p q : Peer} {out : Sending} {due : Option PeerAdminEvent}
  {input : Input} {answer : Except Stop (Option BgpEvent)}

theorem Followed.frame {before after : ConnectionState} (followed : p.Followed before after q) :
    (q.connection = p.connection ∨ q.connection = none) ∧
      q.trackedConnection = p.trackedConnection ∧ q.policy = p.policy ∧
      q.properties = p.properties ∧ q.config = p.config := by
  cases followed with
  | stays | advances => exact ⟨.inl rfl, rfl, rfl, rfl, rfl⟩
  | ends => exact ⟨.inr rfl, rfl, rfl, rfl, rfl⟩

theorem Arrives.isTcp {type : ConnectionType} {timing : Timing} {event : ConnectionEvent}
    (arrives : p.Arrives due input type timing out event) : event.IsTcp := by
  cases arrives with
  | accepted => exact .inr rfl
  | dialed => exact .inl rfl

theorem addConnection_cases (p : Peer) (c : Connection) :
    (∃ main, p.connection = some main ∧
        p.addConnection c = { p with trackedConnection := some c }) ∨
      ∃ fsmState, p.connection = none ∧ c.state.fsmState?.getD p.fsmState = fsmState ∧
        p.addConnection c = { p with connection := some c, fsmState } := by
  rw [addConnection]
  cases main_ : p.connection with
  | some main => exact .inl ⟨main, rfl, rfl⟩
  | none =>
      refine .inr ⟨_, rfl, rfl, ?_⟩
      cases c.state <;> rfl

/-- What an effective start makes of a peer. -/
theorem started_eq (idle : p.fsmState = .idle) :
    ∃ fsmState allowedToActiveConnect, (fsmState = .active ∨ fsmState = .connect) ∧
      p.started = { p with
        peerState := .adminUp
        connectRetryCounter := 0
        connectRetryTimer := some p.config.connectRetryPeriod
        fsmState, allowedToActiveConnect } := by
  rw [started, start]
  split
  · rename_i passive
    simp only [idle, ne_eq, not_true_eq_false, if_false]
    exact ⟨_, _, .inl rfl, rfl⟩
  · rename_i dials
    simp only [idle, ne_eq, not_true_eq_false, if_false]
    exact ⟨_, _, .inr rfl, rfl⟩

theorem handleConnectRetryTick_eq (p : Peer) :
    ∃ fsmState allowedToActiveConnect,
      (fsmState = p.fsmState ∨ p.fsmState = .active ∧ fsmState = .connect) ∧
        p.handleConnectRetryTick =
          { p with connection := none, fsmState, allowedToActiveConnect } := by
  rw [handleConnectRetryTick]
  split
  · rename_i active
    exact ⟨_, _, .inr ⟨active, rfl⟩, rfl⟩
  · exact ⟨_, _, .inl rfl, rfl⟩

/-- No step changes what the peer was made with. -/
def Made (p q : Peer) : Prop :=
  q.properties = p.properties ∧ q.config = p.config

theorem Resolves.made (resolves : p.Resolves out q answer) : p.Made q := by
  cases resolves <;> exact ⟨rfl, rfl⟩

theorem Resolves.policy (resolves : p.Resolves out q answer) : q.policy = p.policy := by
  cases resolves <;> rfl

theorem Moves.made (moves : p.Moves due input q answer) : p.Made q := by
  cases moves with
  | retries =>
      obtain ⟨_, _, -, same⟩ := p.handleConnectRetryTick_eq
      rw [same]
      exact ⟨rfl, rfl⟩
  | starts due_ start idle =>
      obtain ⟨_, _, -, same⟩ := started_eq idle
      rw [same]
      exact ⟨rfl, rfl⟩
  | @adds _ _ _ _ _ c arrives handled =>
      rcases addConnection_cases p.takeRetryTimer c with ⟨_, -, same⟩ | ⟨_, -, -, same⟩ <;>
      · rw [same]
        exact ⟨rfl, rfl⟩
  | handles main_ polled handled after => exact (afterEvent_followed after).frame.2.2.2
  | resolves main_ polled resolved => exact resolved.made
  | tracksResolves tracked_ away early polled handled resolved => exact resolved.made
  | _ => exact ⟨rfl, rfl⟩

theorem Resolves.holds (resolves : p.Resolves out q answer)
    (notified : ∀ c c', I c → Notified c c' → I c') (h : p.Holds I) : q.Holds I := by
  obtain ⟨main, tracked⟩ := h
  cases resolves with
  | promotes collides state =>
      refine ⟨?_, by simp⟩
      rintro c ⟨⟩
      exact tracked _ collides.tracked_
  | loses => exact ⟨by simp, by simp⟩
  | breaks => exact ⟨main, by simp⟩
  | dismisses | dismissalStopped => exact ⟨main, by simp⟩
  | mismatches collides told =>
      refine ⟨main, ?_⟩
      rintro c ⟨⟩
      exact notified _ _ (tracked _ collides.tracked_) told

/-- A step keeps what is stable. -/
theorem Moves.holds {G : BgpOpenMessage → Prop} (moves : p.Moves due input q answer)
    (stable : Stable G I p.properties p.config) (asks : p.policy.Asks G) (h : p.Holds I) :
    q.Holds I := by
  obtain ⟨main, tracked⟩ := h
  cases moves with
  | rests | dials | refused | addStopped => exact ⟨main, tracked⟩
  | retries =>
      obtain ⟨_, _, -, same⟩ := p.handleConnectRetryTick_eq
      rw [same]
      exact ⟨by simp, tracked⟩
  | starts due_ start idle =>
      obtain ⟨_, _, -, same⟩ := started_eq idle
      rw [same]
      exact ⟨main, tracked⟩
  | stops => exact ⟨by simp, by simp⟩
  | stopInterrupted due_ stop main_ dropped notified =>
      refine ⟨?_, tracked⟩
      rintro c ⟨⟩
      exact stable.notified _ _ (main _ main_) notified
  | stopInterruptedLate due_ stop tracked_ notified =>
      refine ⟨by simp, ?_⟩
      rintro c ⟨⟩
      exact stable.notified _ _ (tracked _ tracked_) notified
  | @adds _ _ _ _ _ c arrives handled =>
      have arrived := stable.arrives _ _ _ _ _ asks.now arrives.isTcp handled
      rcases addConnection_cases p.takeRetryTimer c with ⟨_, -, same⟩ | ⟨_, -, -, same⟩
      · rw [same]
        refine ⟨main, ?_⟩
        rintro _ ⟨⟩
        exact arrived
      · rw [same]
        refine ⟨?_, tracked⟩
        rintro _ ⟨⟩
        exact arrived
  | handles main_ polled handled after =>
      have kept := stable.handled _ _ _ _ _ _ _ (asks.later _) (main _ main_) polled handled
      obtain ⟨same | gone, same', -⟩ := (afterEvent_followed after).frame
      · refine ⟨?_, same' ▸ tracked⟩
        rw [same]
        rintro _ ⟨⟩
        exact kept
      · refine ⟨by simp [gone], same' ▸ tracked⟩
  | invalid main_ polled handled | handlingStopped main_ polled handled =>
      refine ⟨?_, tracked⟩
      rintro _ ⟨⟩
      exact stable.handled _ _ _ _ _ _ _ (asks.later _) (main _ main_) polled handled
  | resolves main_ polled resolved =>
      refine resolved.holds stable.notified ⟨?_, tracked⟩
      rintro _ ⟨⟩
      exact stable.polled _ _ _ _ (main _ main_) polled
  | tracks tracked_ away early polled handled =>
      refine ⟨main, ?_⟩
      rintro _ ⟨⟩
      exact stable.handled _ _ _ _ _ _ _ (asks.later _) (tracked _ tracked_) polled handled
  | tracksResolves tracked_ away early polled handled resolved =>
      refine resolved.holds stable.notified ⟨main, ?_⟩
      rintro _ ⟨⟩
      exact stable.handled _ _ _ _ _ _ _ (asks.later _) (tracked _ tracked_) polled handled

/-! ## Runs -/

/-- The peer after a step that does not end the task. -/
def next (p : Peer) (input : Input) : Except FsmStateError Peer :=
  (p.step input).map Prod.fst

theorem next_ok (h : p.next input = .ok q) : ∃ event, p.step input = .ok (q, event) := by
  rw [next] at h
  cases stepped : p.step input with
  | error error =>
      rw [stepped] at h
      cases h
  | ok result =>
      rw [stepped] at h
      obtain ⟨q', event⟩ := result
      cases h
      exact ⟨event, rfl⟩

theorem next_moves (h : p.next input = .ok q) :
    ∃ waiting selecting waiting' selecting' q' answer,
      (p.noted waiting selecting).Moves p.waitingAdminEvents.getLast? input q' answer ∧
        q = q'.noted waiting' selecting' ∧ ∀ error, answer ≠ .error (.error error) := by
  obtain ⟨event, stepped⟩ := next_ok h
  have moves := p.step_stepped input
  rw [stepped] at moves
  obtain ⟨waiting, selecting, waiting', selecting', q', answer, moves, same, ended⟩ := moves
  refine ⟨waiting, selecting, waiting', selecting', q', answer, moves, same, fun error wrong => ?_⟩
  rcases ended with rfl | ⟨rfl, -⟩ <;> cases wrong

/-- No step changes a policy but by what it has seen. -/
theorem Moves.policy (moves : p.Moves due input q answer) :
    q.policy = p.policy ∨ ∃ event, q.policy = p.policy.preHandleConnectionEventHook event := by
  cases moves with
  | retries =>
      obtain ⟨_, _, -, same⟩ := p.handleConnectRetryTick_eq
      exact .inl (by rw [same])
  | starts due_ start idle =>
      obtain ⟨_, _, -, same⟩ := started_eq idle
      exact .inl (by rw [same])
  | @adds _ _ _ _ _ c arrives handled =>
      rcases addConnection_cases p.takeRetryTimer c with ⟨_, -, same⟩ | ⟨_, -, -, same⟩ <;>
        exact .inl (by rw [same]; rfl)
  | handles main_ polled handled after =>
      exact .inr ⟨_, (afterEvent_followed after).frame.2.2.1⟩
  | invalid | handlingStopped | tracks => exact .inr ⟨_, rfl⟩
  | resolves main_ polled resolved => exact .inl resolved.policy
  | tracksResolves tracked_ away early polled handled resolved => exact .inr ⟨_, resolved.policy⟩
  | _ => exact .inl rfl

/-- What is stable holds of every connection that a peer ever has. -/
theorem run_holds {G : BgpOpenMessage → Prop} {properties : PeerProperties} {config : PeerConfig}
    (stable : Stable G I properties config) (Policy : EchoCapabilitiesPolicy → Prop)
    (asks : ∀ policy, Policy policy → policy.Asks G)
    (hook : ∀ policy event, Policy policy → Policy (policy.preHandleConnectionEventHook event))
    {policy : EchoCapabilitiesPolicy} (start : Policy policy) {inputs : List Input}
    (run : inputs.foldlM next (new properties config policy) = .ok p) :
    p.Holds I := by
  refine (foldlM_invariant
    (fun p => p.Holds I ∧ Policy p.policy ∧ p.properties = properties ∧ p.config = config)
    ?_ ?_ run).1
  · rintro p input q ⟨holds, policy_, rfl, rfl⟩ stepped
    obtain ⟨_, _, _, _, q', answer, moves, rfl, -⟩ := next_moves stepped
    refine ⟨moves.holds stable (asks _ policy_) holds, ?_, moves.made⟩
    rcases moves.policy with same | ⟨event, same⟩
    · exact same ▸ policy_
    · exact same ▸ hook _ event policy_
  · exact ⟨⟨by rintro c ⟨⟩, by rintro c ⟨⟩⟩, start, rfl, rfl⟩

/-- The handshake is stable. -/
theorem sound_stable (properties : PeerProperties) (config : PeerConfig) :
    Stable (fun _ => True) (fun c => c.Sound properties.expectedAsn ∧ c.config = config) properties
      config where
  arrives type timing event c ours _ tcp handled := by
    refine ⟨(new_sound properties type config timing ?_).handled
      (new_polled properties type config timing tcp) handled, handled.config⟩
    intro n known
    rw [PeerProperties.expectedAsn] at known
    split at known
    · cases known
    · rename_i static
      exact ⟨by simpa using static, Option.some.inj known⟩
  polled c stimulus c' event sound polled := by
    obtain ⟨_, _, _, same⟩ := pollNext_frame polled
    exact ⟨(sound.1.polls polled).1, by rw [same]; exact sound.2⟩
  handled c stimulus c' event c'' ours stop _ sound polled handled := by
    obtain ⟨sound', polled'⟩ := sound.1.polls polled
    obtain ⟨_, _, _, same⟩ := pollNext_frame polled
    refine ⟨sound'.handled polled' handled, ?_⟩
    rw [handled.config, same]
    exact sound.2
  notified c c' sound notified := ⟨sound.1.notified notified, notified.config.trans sound.2⟩

theorem run_sound {properties : PeerProperties} {config : PeerConfig}
    {policy : EchoCapabilitiesPolicy} {inputs : List Input}
    (run : inputs.foldlM next (new properties config policy) = .ok p) :
    p.Holds fun c => c.Sound properties.expectedAsn ∧ c.config = config :=
  run_holds (sound_stable properties config) (fun _ => True)
    (fun _ _ => ⟨trivial, fun _ => trivial⟩) (fun _ _ _ => trivial) trivial run

/-- Whatever the world does, every connection of a peer speaks OPEN first and once, and
    reaches `OpenConfirm` and `Established` only through a complete handshake. -/
theorem connections_sound (properties : PeerProperties) (config : PeerConfig)
    (policy : EchoCapabilitiesPolicy) (inputs : List Input)
    (run : inputs.foldlM next (new properties config policy) = .ok p) :
    p.Holds fun c => c.Sound properties.expectedAsn ∧ c.config = config :=
  run_sound run

theorem exampleSession_sound :
    ∃ p c, exampleSession.foldlM next (new exampleProperties .default examplePolicy) = .ok p ∧
      p.connection = some c ∧ c.state = .established ∧
        p.Holds fun c => c.Sound exampleProperties.expectedAsn ∧ c.config = .default :=
  ⟨_, _, rfl, rfl, rfl,
    connections_sound exampleProperties .default examplePolicy exampleSession rfl⟩

theorem allSent_delivers : allSent.Delivers :=
  fun _ => rfl

theorem allSent_lasts : allSent.Lasts := by
  rintro message recorded ⟨⟩

end Peer

end Erez.Speaker
