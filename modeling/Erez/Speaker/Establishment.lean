import Erez.Speaker.Safety

/-! # A session comes up

What the handshake needs to be complete: a peer that is started, a connection, the OPEN
and the KEEPALIVE of the other side, and messages that are sent.
-/

namespace Erez.Speaker

open Daemon Lib

namespace Peer

variable {p : Peer} {out : Sending}

/-- The peer waits, with nothing else to do. -/
def waits (p : Peer) : Peer :=
  { p with selecting := some ⟨false, false⟩ }

theorem next_wait (free : p.selecting = none) (quiet : p.waitingAdminEvents = []) :
    p.next .wait = .ok p.waits := by
  rw [next, step.eq_def, free]
  change Except.map Prod.fst (if p.waitingAdminEvents = [] then _ else _) = _
  rw [if_pos quiet]
  rfl

/-! ## The start -/

end Peer

/-! ## The connection -/

open Peer (runHandler)

namespace Connection

/-- The first word has been said, or it waits for the other side's. -/
def Greets (ours : BgpOpenMessage) (c : Connection) : Prop :=
  if c.config.openDelayTimerDuration = 0 then
    c.state = .openSent ∧ c.openDelayTimer = none ∧ c.inner = [.openMsg ours]
  else c.state = .connected ∧ c.openDelayTimer ≠ none ∧ c.inner = []

/-- A new connection greets. -/
theorem new_greets {out : Sending} (delivers : out.Delivers) (ours : BgpOpenMessage)
    {event : ConnectionEvent} (tcp : event.IsTcp) (properties : PeerProperties)
    (type : ConnectionType) (config : PeerConfig) (timing : Timing) :
    ∃ c, runHandler (handleEvent out ours event) (new properties type config timing) =
        (c, none) ∧ c.Greets ours ∧ c.config = config ∧ c.peerAsn = properties.expectedAsn := by
  have fresh : (new properties type config timing).state = .connected := rfl
  have same : (new properties type config timing).config = config := rfl
  have asn : (new properties type config timing).peerAsn = properties.expectedAsn := rfl
  have silent : (new properties type config timing).inner = [] := rfl
  have undelayed : (new properties type config timing).openDelayTimer = none := rfl
  generalize new properties type config timing = c at fresh same asn silent undelayed ⊢
  subst same
  by_cases delay : c.config.openDelayTimerDuration = 0
  · refine ⟨(c.startHoldTimer.startSend (.openMsg ours)).inState .openSent, ?_, ?_, by simp,
      by simpa using asn⟩
    · rcases tcp with rfl | rfl <;>
        simp only [runHandler, handleEvent, handleConnectedEvent, Handler.bind_apply,
          Handler.get_apply, fresh, delay, if_true, Handler.modify_apply,
          Handler.send_delivers delivers, Handler.setState_apply, Handler.pure_apply]
    · simp [Greets, delay, startSend_inner, silent, undelayed]
  · refine ⟨{ c with
      openDelayTimer := some (.fromSecs c.config.openDelayTimerDuration.toNat) }, ?_, ?_, rfl, asn⟩
    · rcases tcp with rfl | rfl <;>
        simp only [runHandler, handleEvent, handleConnectedEvent, Handler.bind_apply,
          Handler.get_apply, fresh, delay, if_false, Handler.modify_apply, Handler.pure_apply]
    · simp [Greets, delay, fresh, silent]

/-- An OPEN whose number is the expected one is no error. -/
theorem handleOpenMessage_expected {theirs : BgpOpenMessage} {peerAsn : Option UInt32}
    (expected : ∀ n, peerAsn = some n → n = theirs.myAsn4) (delayTimerRunning : Bool) :
    handleOpenMessage theirs peerAsn delayTimerRunning = (theirs.bgpId,
      if delayTimerRunning then .bgpOpenWithDelayOpenTimer theirs else .bgpOpen theirs) := by
  cases peerAsn with
  | none => rfl
  | some n => rw [handleOpenMessage, if_neg (not_not.mpr (expected n rfl))]

theorem pollNext_expected {c : Connection} {theirs : BgpOpenMessage}
    (expected : ∀ n, c.peerAsn = some n → n = theirs.myAsn4)
    (errors : List PathAttributeParsingError) (otherEor : Option Daemon.AddressType) :
    ∃ d, c.pollNext (.message (.openMsg theirs) errors otherEor) = some (d,
        if c.openDelayTimer.isSome then .bgpOpenWithDelayOpenTimer theirs else .bgpOpen theirs) ∧
      d.state = c.state ∧ d.inner = c.inner := by
  have received := c.receive_openMsg theirs errors otherEor
  rw [handleOpenMessage_expected expected] at received
  exact ⟨_, received, rfl, rfl⟩

/-- The other side's OPEN has been answered. -/
structure Shaken (ours theirs : BgpOpenMessage) (c : Connection) : Prop where
  read : c.HasRead theirs
  inner : c.inner = [.openMsg ours, .keepAlive]

variable {c : Connection} {ours ours' theirs : BgpOpenMessage} {out : Sending}

/-- The OPEN comes to a connection that has sent its own. -/
theorem Greets.opened (greets : c.Greets ours) (prompt : c.config.openDelayTimerDuration = 0)
    (expected : ∀ n, c.peerAsn = some n → n = theirs.myAsn4) (delivers : out.Delivers)
    (errors : List PathAttributeParsingError) (otherEor : Option Daemon.AddressType) :
    ∃ d d' : Connection, c.pollNext (.message (.openMsg theirs) errors otherEor) = some (d, .bgpOpen theirs) ∧
      d.state = .openSent ∧
      runHandler (handleEvent out ours' (.bgpOpen theirs)) d =
        (d'.inState .openConfirm, none) ∧ d'.Shaken ours theirs := by
  rw [Greets, if_pos prompt] at greets
  obtain ⟨at_, undelayed, said⟩ := greets
  obtain ⟨d, polled, same, said'⟩ := pollNext_expected expected errors otherEor
  have at_' := same.trans at_
  rw [undelayed] at polled
  refine ⟨d, (d.negotiated theirs).startSend .keepAlive, polled, at_', ?_,
    (negotiated_hasRead d theirs).startSend _, ?_⟩
  · simp only [runHandler, handleEvent, handleOpenSentEvent, Handler.bind_apply,
      Handler.get_apply, at_', Handler.modify_apply, Handler.send_delivers delivers,
      Handler.setState_apply, Handler.pure_apply]
  · rw [startSend_inner, negotiated_inner, said', said]
    rfl

/-- The OPEN comes to a connection that has waited for it. -/
theorem Greets.answered (greets : c.Greets ours) (delayed : c.config.openDelayTimerDuration ≠ 0)
    (expected : ∀ n, c.peerAsn = some n → n = theirs.myAsn4) (delivers : out.Delivers)
    (errors : List PathAttributeParsingError) (otherEor : Option Daemon.AddressType) :
    ∃ d d' : Connection, c.pollNext (.message (.openMsg theirs) errors otherEor) =
        some (d, .bgpOpenWithDelayOpenTimer theirs) ∧
      d.state = .connected ∧
      runHandler (handleEvent out ours' (.bgpOpenWithDelayOpenTimer theirs)) d =
        (d'.inState .openConfirm, none) ∧ d'.Shaken ours' theirs := by
  rw [Greets, if_neg delayed] at greets
  obtain ⟨at_, running, said⟩ := greets
  obtain ⟨d, polled, same, said'⟩ := pollNext_expected expected errors otherEor
  have at_' := same.trans at_
  rw [if_pos (Option.isSome_iff_ne_none.mpr running)] at polled
  refine ⟨d, ((d.negotiated theirs).startSend (.openMsg ours')).startSend .keepAlive, polled, at_',
    ?_, ((negotiated_hasRead d theirs).startSend _).startSend _, ?_⟩
  · simp only [runHandler, handleEvent, handleConnectedEvent, Handler.bind_apply,
      Handler.get_apply, at_', Handler.modify_apply, Handler.send_delivers delivers,
      Handler.setState_apply, Handler.pure_apply]
  · rw [startSend_inner, startSend_inner, negotiated_inner, said', said]
    rfl

/-- The KEEPALIVE completes the handshake. -/
theorem Shaken.established (shaken : c.Shaken ours theirs)
    (errors : List PathAttributeParsingError) (otherEor : Option Daemon.AddressType) :
    ∃ d : Connection, (c.inState .openConfirm).pollNext (.message .keepAlive errors otherEor) =
        some (d.inState .openConfirm, .keepAliveMsg) ∧
      runHandler (handleEvent out ours' .keepAliveMsg) (d.inState .openConfirm) =
        (d.inState .established, none) ∧ d.Shaken ours theirs := by
  obtain ⟨⟨capabilities, holdTime, asn, hold, keepalive, holdTimer, keepaliveTimer⟩, inner⟩ :=
    shaken
  refine ⟨{ c with
    stats := { c.stats with
      messagesReceived := c.stats.messagesReceived + 1
      keepaliveReceived := c.stats.keepaliveReceived + 1 } }, rfl, rfl,
    ⟨capabilities, holdTime, asn, hold, keepalive, holdTimer, keepaliveTimer⟩, inner⟩

end Connection

namespace Peer

variable {p : Peer} {out : Sending}

/-- There is one connection, and it greets. -/
structure Greeted (p : Peer) (c : Connection) : Prop where
  main_ : p.connection = some c
  tracked : p.trackedConnection = none
  free : p.selecting = none
  quiet : p.waitingAdminEvents = []
  greets : c.Greets p.policy.openMessage
  asn : c.peerAsn = p.properties.expectedAsn
  config : c.config = p.config

theorem addConnection_greeted {c : Connection} (alone : p.connection = none)
    (tracked : p.trackedConnection = none) (quiet : p.waitingAdminEvents = [])
    (greets : c.Greets p.policy.openMessage) (asn : c.peerAsn = p.properties.expectedAsn)
    (config : c.config = p.config) :
    ∃ q : Peer, { p.addConnection c with selecting := none } = q ∧ q.Greeted c ∧
      q.policy = p.policy ∧ p.Made q := by
  rcases addConnection_cases p c with ⟨main, main_, -⟩ | ⟨fsmState, -, -, same⟩
  · rw [alone] at main_
    cases main_
  · rw [same]
    exact ⟨_, rfl, ⟨rfl, tracked, rfl, quiet, greets, asn, config⟩, rfl, rfl, rfl⟩

/-- What the peer says in its OPEN: the other side's capabilities are known if it has waited. -/
def opening (p : Peer) (theirs : BgpOpenMessage) : BgpOpenMessage :=
  if p.config.openDelayTimerDuration = 0 then p.policy.openMessage
  else (p.policy.preHandleConnectionEventHook (.bgpOpenWithDelayOpenTimer theirs)).openMessage

/-- There is one connection, in this state, and it has answered the other side's OPEN. -/
structure Met (p : Peer) (ours theirs : BgpOpenMessage) (state : ConnectionState) : Prop where
  main_ : ∃ c : Connection, p.connection = some (c.inState state) ∧ c.Shaken ours theirs
  tracked : p.trackedConnection = none
  free : p.selecting = none
  quiet : p.waitingAdminEvents = []

/-- The number in the OPEN is the one that is configured, if there is one. -/
def PeerProperties.Expects (properties : PeerProperties) (theirs : BgpOpenMessage) : Prop :=
  properties.allowDynamicAs = true ∨ theirs.myAsn4 = properties.peerAsn

variable {theirs ours : BgpOpenMessage} {errors : List PathAttributeParsingError}
  {otherEor : Option Daemon.AddressType} {outCease : Sending}

/-- A step on the main connection of a peer that has no other. -/
theorem next_main {q : Peer} {main c c' : Connection} {stimulus : Stimulus}
    {event : ConnectionEvent} (main_ : p.connection = some main)
    (tracked : p.trackedConnection = none) (free : p.selecting = none)
    (quiet : p.waitingAdminEvents = []) (polled : main.pollNext stimulus = some (c, event))
    (ran : runHandler
      (handleEvent out (p.policy.preHandleConnectionEventHook event).openMessage event) c =
        (c', none))
    (after : { p.waits with
      policy := p.policy.preHandleConnectionEventHook event
      connection := some c' }.afterEvent c' c.state event = .ok q) :
    [.wait, .main stimulus out outCease].foldlM next p =
      .ok { q with selecting := none } := by
  refine foldlM_cons_ok.mpr ⟨_, next_wait free quiet, foldlM_cons_ok.mpr ⟨_, ?_, rfl⟩⟩
  rw [next, step_main_handles (p := p.waits) rfl main_ polled
    (checkConnectionCollision_alone (p := p.waits) tracked c _) ran after]
  rfl

theorem Greeted.meets {c : Connection} (greeted : p.Greeted c)
    (expects : PeerProperties.Expects p.properties theirs) (delivers : out.Delivers) :
    ∃ q, [.wait, .main (.message (.openMsg theirs) errors otherEor) out outCease].foldlM next p =
        .ok q ∧ q.Met (p.opening theirs) theirs .openConfirm := by
  have expected (n : UInt32) (known : c.peerAsn = some n) : n = theirs.myAsn4 := by
    rw [greeted.asn, PeerProperties.expectedAsn] at known
    split at known
    · cases known
    · rename_i static
      exact ((Option.some.inj known).symm.trans (expects.resolve_left static).symm)
  rw [opening, ← greeted.config]
  by_cases prompt : c.config.openDelayTimerDuration = 0
  · obtain ⟨d, d', polled, at_, ran, shaken⟩ := greeted.greets.opened prompt expected delivers
      errors otherEor
    have after (p : Peer) : p.afterEvent (d'.inState .openConfirm) d.state (.bgpOpen theirs) =
        .ok (p.takeRetryTimer.fsmTransition .openConfirm) := by
      rw [at_]
      rfl
    rw [if_pos prompt]
    refine ⟨_, next_main greeted.main_ greeted.tracked greeted.free greeted.quiet polled ran
      (after _), ?_⟩
    exact ⟨⟨d', rfl, shaken⟩, greeted.tracked, rfl, greeted.quiet⟩
  · obtain ⟨d, d', polled, at_, ran, shaken⟩ := greeted.greets.answered prompt expected delivers
      errors otherEor
    have after (p : Peer) :
        p.afterEvent (d'.inState .openConfirm) d.state (.bgpOpenWithDelayOpenTimer theirs) =
          .ok (p.takeRetryTimer.fsmTransition .openConfirm) := by
      rw [at_]
      rfl
    rw [if_neg prompt]
    refine ⟨_, next_main greeted.main_ greeted.tracked greeted.free greeted.quiet polled ran
      (after _), ?_⟩
    exact ⟨⟨d', rfl, shaken⟩, greeted.tracked, rfl, greeted.quiet⟩

theorem Met.establishes (met : p.Met ours theirs .openConfirm) :
    ∃ q, [.wait, .main (.message .keepAlive errors otherEor) out outCease].foldlM next p = .ok q ∧
      q.Met ours theirs .established ∧ q.fsmState = .established := by
  obtain ⟨c, main_, shaken⟩ := met.main_
  obtain ⟨d, polled, ran, shaken'⟩ := shaken.established errors otherEor
  refine ⟨_, next_main main_ met.tracked met.free met.quiet polled ran rfl, ?_, rfl⟩
  exact ⟨⟨d, rfl, shaken'⟩, met.tracked, rfl, met.quiet⟩

/-- What the other side has to say. -/
def handshake (out outCease : Sending) (theirs : BgpOpenMessage)
    (errors errors' : List PathAttributeParsingError)
    (otherEor otherEor' : Option Daemon.AddressType) : List Input :=
  [.wait, .main (.message (.openMsg theirs) errors otherEor) out outCease] ++
    [.wait, .main (.message .keepAlive errors' otherEor') out outCease]

variable {errors' : List PathAttributeParsingError} {otherEor' : Option Daemon.AddressType}

theorem Greeted.comes_up {c : Connection} (greeted : p.Greeted c)
    (expects : PeerProperties.Expects p.properties theirs) (delivers : out.Delivers) :
    ∃ q, (handshake out outCease theirs errors errors' otherEor otherEor').foldlM next p = .ok q ∧
      q.Met (p.opening theirs) theirs .established ∧ q.fsmState = .established := by
  obtain ⟨mid, opened, met⟩ := greeted.meets expects delivers
  obtain ⟨q, kept, met', state⟩ := met.establishes
  exact ⟨q, foldlM_append_ok opened kept, met', state⟩

theorem opening_congr {q : Peer} (policy : q.policy = p.policy) (made : p.Made q)
    (theirs : BgpOpenMessage) : q.opening theirs = p.opening theirs := by
  rw [opening, opening, made.2, policy]

/-- A started peer without a connection. -/
structure Open (p : Peer) : Prop where
  up : p.peerState = .adminUp
  connection : p.connection = none
  tracked : p.trackedConnection = none
  quiet : p.waitingAdminEvents = []
  unestablished : p.fsmState ≠ .established

theorem acceptConnection_adds {timing : Timing} {c : Connection} (open_ : p.Open)
    (ran : runHandler (handleEvent out p.policy.openMessage .tcpConnectionConfirmed)
      (.new p.properties .passive p.config timing) = (c, none)) :
    (acceptConnection timing out).run p =
      .ok (some (.connection .tcpConnectionConfirmed)) (p.takeRetryTimer.addConnection c) := by
  have allowed : ¬ (p.peerState = .adminDown ∨
      (p.connection.isSome ∧ p.trackedConnection.isSome) ∨
      (p.fsmState = .established ∧ !p.config.collisionDetectEstablishedState)) := by
    simp [open_.up, open_.connection, open_.unestablished]
  rw [acceptConnection, EStateM.run_bind, EStateM.run_get]
  simp only [if_neg allowed, EStateM.run_bind, EStateM.run_modify, ran]
  rfl

theorem accepts_up (open_ : p.Open) (timing : Timing) (outTracked : Sending)
    (delivers : out.Delivers) :
    ∃ q c, [.peerEvent (some .tcpConnectionConfirmed), .admin timing out outTracked].foldlM next
        p = .ok q ∧ q.Greeted c ∧ q.policy = p.policy ∧ p.Made q := by
  let due : Peer := { p with waitingAdminEvents := [], selecting := some ⟨false, false⟩ }
  obtain ⟨c, ran, greets, config, asn⟩ := Connection.new_greets delivers p.policy.openMessage
    (.inr rfl : ConnectionEvent.IsTcp .tcpConnectionConfirmed) p.properties .passive p.config
    timing
  obtain ⟨q, added, greeted, policy, made⟩ := addConnection_greeted (p := due.takeRetryTimer)
    open_.connection open_.tracked rfl greets asn config
  have open_' : due.Open :=
    ⟨open_.up, open_.connection, open_.tracked, rfl, open_.unestablished⟩
  refine ⟨q, c, foldlM_cons_ok.mpr ⟨_, rfl, foldlM_cons_ok.mpr ⟨q, ?_, rfl⟩⟩, greeted, policy,
    made⟩
  rw [open_.quiet]
  change Except.map Prod.fst (finish ((acceptConnection timing out).run due)) = _
  rw [acceptConnection_adds open_' ran, ← added]
  rfl

/-- So does every started peer without a connection when the other side dials, also one whose
    own dial was refused. -/
theorem accepted_session_comes_up (open_ : p.Open)
    (expects : PeerProperties.Expects p.properties theirs) (delivers : out.Delivers)
    (timing : Timing) (outTracked : Sending) :
    ∃ q, ([Input.peerEvent (some .tcpConnectionConfirmed), .admin timing out outTracked] ++
        handshake out outCease theirs errors errors' otherEor otherEor').foldlM next p = .ok q ∧
      q.Met (p.opening theirs) theirs .established ∧ q.fsmState = .established := by
  obtain ⟨early, c, accepted, greeted, policy, made⟩ := accepts_up open_ timing outTracked delivers
  rw [← made.1] at expects
  obtain ⟨q, shaken, met, state⟩ := greeted.comes_up expects delivers
  rw [opening_congr policy made] at met
  exact ⟨q, foldlM_append_ok accepted shaken, met, state⟩

/-- The peer is started, and does not dial. -/
theorem example_accepts :
    ∃ p q, [Input.peerEvent (some .manualStart), .admin exampleTiming allSent allSent].foldlM next
        (new exampleProperties .default examplePolicy) = .ok p ∧
      ([Input.peerEvent (some .tcpConnectionConfirmed), .admin exampleTiming allSent allSent] ++
        handshake allSent allSent theirOpen [] [] none none).foldlM next p = .ok q ∧
      q.Met examplePolicy.openMessage theirOpen .established ∧ q.fsmState = .established := by
  refine ⟨_, _, rfl, (accepted_session_comes_up ⟨rfl, rfl, rfl, rfl, by decide⟩ (.inl rfl)
    allSent_delivers exampleTiming allSent).choose_spec⟩

end Peer

end Erez.Speaker
