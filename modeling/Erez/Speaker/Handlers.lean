import Erez.Speaker.Connection

/-! # The handlers of a connection

One handler for each state of the connection. What they do is said once, in
`Handled`: each case names the events it is about and what the connection is
afterwards, so that nothing else unfolds a handler.
-/

namespace Erez.Speaker

open Daemon Handler

/-! ## The code -/

/-- `HoldTimerExpiredError::Unspecific` with nothing in it. -/
def holdTimerExpired : BgpMessage :=
  .notification (.holdTimerExpiredError (.unspecific 0 []))

def unexpectedInOpenSent : BgpMessage :=
  .notification (.finiteStateMachineError (.receiveUnexpectedMessageInOpenSentState []))

def unexpectedInOpenConfirm : BgpMessage :=
  .notification (.finiteStateMachineError (.receiveUnexpectedMessageInOpenConfirmState []))

/-- The peer's OPEN is read, and the timers are started as negotiated. -/
def Connection.negotiated (c : Connection) (message : BgpOpenMessage) : Connection :=
  (({ c with openDelayTimer := none }.readOpenMsg message).setNegotiatedTimers).startNegotiatedTimers

/-- `ourOpen` is what the policy answers when it is asked for an OPEN. -/
def handleConnectedEvent (out : Sending) (ourOpen : BgpOpenMessage) (event : ConnectionEvent) :
    Handler ConnectionEvent := do
  match event with
  | .delayOpenTimerExpires =>
      modify Connection.startHoldTimer
      send out (.openMsg ourOpen)
      setState .openSent
  | .tcpConnectionRequestAcked | .tcpConnectionConfirmed =>
      if (← get).config.openDelayTimerDuration = 0 then
        modify Connection.startHoldTimer
        send out (.openMsg ourOpen)
        setState .openSent
      else
        modify fun c =>
          { c with openDelayTimer := some (.fromSecs c.config.openDelayTimerDuration.toNat) }
  | .bgpOpenWithDelayOpenTimer message =>
      modify (·.negotiated message)
      send out (.openMsg ourOpen)
      send out .keepAlive
      setState .openConfirm
  | .bgpHeaderErr error =>
      if (← get).config.sendNotifWithoutOpen then
        trySend out (.notification (.messageHeaderError error))
      setState .terminate
  | .bgpOpenMsgErr error =>
      if (← get).config.sendNotifWithoutOpen then
        trySend out (.notification (.openMessageError error))
      setState .terminate
  | .notifMsgVerErr => setState .terminate
  | .notifMsgErr => pure ()
  | .holdTimerExpires | .keepAliveTimerExpires | .tcpConnectionFails | .bgpOpen _ | .notifMsg _
  | .keepAliveMsg | .updateMsg _ _ | .updateMsgErr _ | .routeRefresh _ | .routeRefreshErr _ =>
      setState .terminate
  return event

def handleOpenSentEvent (out : Sending) (event : ConnectionEvent) : Handler ConnectionEvent := do
  match event with
  | .holdTimerExpires =>
      send out holdTimerExpired
      setState .terminate
  | .bgpOpen message =>
      modify (·.negotiated message)
      send out .keepAlive
      setState .openConfirm
  | .tcpConnectionFails => setState .terminate
  | .bgpHeaderErr error =>
      trySend out (.notification (.messageHeaderError error))
      setState .terminate
  | .bgpOpenMsgErr error =>
      trySend out (.notification (.openMessageError error))
      setState .terminate
  | .notifMsgErr => pure ()
  | .notifMsgVerErr => setState .terminate
  | .keepAliveTimerExpires | .delayOpenTimerExpires | .bgpOpenWithDelayOpenTimer _ | .notifMsg _
  | .keepAliveMsg | .updateMsg _ _ | .updateMsgErr _ | .routeRefresh _ | .routeRefreshErr _ =>
      trySend out unexpectedInOpenSent
      setState .terminate
  | .tcpConnectionRequestAcked | .tcpConnectionConfirmed => setState .terminate
  return event

def handleOpenConfirmEvent (out : Sending) (event : ConnectionEvent) :
    Handler ConnectionEvent := do
  match event with
  | .holdTimerExpires =>
      -- The state is changed before the notification is sent.
      setState .terminate
      send out holdTimerExpired
  | .keepAliveTimerExpires => send out .keepAlive
  | .notifMsgVerErr => setState .terminate
  | .notifMsg _ => setState .terminate
  | .bgpHeaderErr error =>
      trySend out (.notification (.messageHeaderError error))
      setState .terminate
  | .bgpOpenMsgErr error =>
      trySend out (.notification (.openMessageError error))
      setState .terminate
  | .bgpOpen _ =>
      trySend out unexpectedInOpenConfirm
      setState .terminate
  -- The hold timer starts anew.
  | .keepAliveMsg => setState .established
  | .tcpConnectionFails => setState .terminate
  | .notifMsgErr => pure ()
  | .delayOpenTimerExpires | .bgpOpenWithDelayOpenTimer _ | .updateMsg _ _ | .updateMsgErr _
  | .routeRefresh _ | .routeRefreshErr _ =>
      trySend out unexpectedInOpenConfirm
      setState .terminate
  | .tcpConnectionRequestAcked | .tcpConnectionConfirmed => setState .terminate
  return event

def handleEstablishedEvent (out : Sending) (event : ConnectionEvent) :
    Handler ConnectionEvent := do
  match event with
  | .holdTimerExpires =>
      trySend out holdTimerExpired
      setState .terminate
  | .keepAliveTimerExpires => send out .keepAlive
  | .delayOpenTimerExpires | .bgpOpen _ | .bgpOpenWithDelayOpenTimer _ | .bgpHeaderErr _
  | .bgpOpenMsgErr _ | .notifMsgVerErr | .notifMsg _ => setState .terminate
  -- The hold timer starts anew.
  | .keepAliveMsg => pure ()
  | .updateMsg _ _ | .routeRefresh _ => pure ()
  | .updateMsgErr _ | .routeRefreshErr _ | .tcpConnectionFails | .tcpConnectionRequestAcked
  | .tcpConnectionConfirmed => setState .terminate
  | .notifMsgErr => pure ()
  return event

/-- Events are ignored once the connection is marked for termination. -/
def handleEvent (out : Sending) (ourOpen : BgpOpenMessage) (event : ConnectionEvent) :
    Handler ConnectionEvent := do
  match (← get).state with
  | .terminate => return event
  | .connected => handleConnectedEvent out ourOpen event
  | .openSent => handleOpenSentEvent out event
  | .openConfirm => handleOpenConfirmEvent out event
  | .established => handleEstablishedEvent out event

/-! ## What a handler does -/

/-- The TCP connection is there. -/
def ConnectionEvent.IsTcp (event : ConnectionEvent) : Prop :=
  event = .tcpConnectionRequestAcked ∨ event = .tcpConnectionConfirmed

/-- The event is passed on, and the connection stays as it is. -/
inductive Quiet : ConnectionState → ConnectionEvent → Prop
  | terminate (event : ConnectionEvent) : Quiet .terminate event
  | notifMsgErr (state : ConnectionState) : Quiet state .notifMsgErr
  | keepAliveMsg : Quiet .established .keepAliveMsg
  | updateMsg (message : BgpUpdateMessage) (treatment : UpdateTreatment) :
      Quiet .established (.updateMsg message treatment)
  | routeRefresh (message : BgpRouteRefreshMessage) : Quiet .established (.routeRefresh message)

/-- The event ends the connection. -/
inductive Fatal : ConnectionState → ConnectionEvent → Prop
  | connected {event : ConnectionEvent} (h : event ≠ .delayOpenTimerExpires) (tcp : ¬ event.IsTcp)
      (answer : ∀ message, event ≠ .bgpOpenWithDelayOpenTimer message)
      (notif : event ≠ .notifMsgErr) : Fatal .connected event
  | openSent {event : ConnectionEvent} (answer : ∀ message, event ≠ .bgpOpen message)
      (notif : event ≠ .notifMsgErr) : Fatal .openSent event
  | openConfirm {event : ConnectionEvent} (timer : event ≠ .keepAliveTimerExpires)
      (message : event ≠ .keepAliveMsg) (notif : event ≠ .notifMsgErr) : Fatal .openConfirm event
  | established {event : ConnectionEvent} (timer : event ≠ .keepAliveTimerExpires)
      (loud : ¬ Quiet .established event) : Fatal .established event

/-- A message was given to the stream, or the stream did not take it. -/
def Offered (c : Connection) (message : BgpMessage) (c' : Connection) : Prop :=
  c' = c ∨ c' = c.startSend message

/-- At most a notification was sent. -/
def Notified (c c' : Connection) : Prop :=
  ∃ notif, Offered c (.notification notif) c'

/-- What an event makes of a connection: `none` if it was handled to its end, and
    else what stopped the handler. -/
inductive Handled (ourOpen : BgpOpenMessage) (c : Connection) :
    ConnectionEvent → Connection → Option Stop → Prop
  | quiet {event : ConnectionEvent} (h : Quiet c.state event) : Handled ourOpen c event c none
  | waits {event : ConnectionEvent} (at_ : c.state = .connected) (tcp : event.IsTcp)
      (delay : c.config.openDelayTimerDuration ≠ 0) :
      Handled ourOpen c event
        { c with openDelayTimer := some (.fromSecs c.config.openDelayTimerDuration.toNat) } none
  | opens {event : ConnectionEvent} (at_ : c.state = .connected)
      (h : event = .delayOpenTimerExpires ∨ event.IsTcp ∧ c.config.openDelayTimerDuration = 0) :
      Handled ourOpen c event
        ((c.startHoldTimer.startSend (.openMsg ourOpen)).inState .openSent) none
  | openStopped {event : ConnectionEvent} {c' : Connection} {stop : Stop}
      (at_ : c.state = .connected)
      (h : event = .delayOpenTimerExpires ∨ event.IsTcp ∧ c.config.openDelayTimerDuration = 0)
      (offered : Offered c.startHoldTimer (.openMsg ourOpen) c') :
      Handled ourOpen c event c' (some stop)
  | answers (message : BgpOpenMessage) (at_ : c.state = .connected) :
      Handled ourOpen c (.bgpOpenWithDelayOpenTimer message)
        ((((c.negotiated message).startSend (.openMsg ourOpen)).startSend .keepAlive).inState
          .openConfirm) none
  | answerStopped {message : BgpOpenMessage} {c' : Connection} {stop : Stop}
      (at_ : c.state = .connected)
      (offered : Offered (c.negotiated message) (.openMsg ourOpen) c' ∨
        Offered ((c.negotiated message).startSend (.openMsg ourOpen)) .keepAlive c') :
      Handled ourOpen c (.bgpOpenWithDelayOpenTimer message) c' (some stop)
  | confirms (message : BgpOpenMessage) (at_ : c.state = .openSent) :
      Handled ourOpen c (.bgpOpen message)
        (((c.negotiated message).startSend .keepAlive).inState .openConfirm) none
  | confirmStopped {message : BgpOpenMessage} {c' : Connection} {stop : Stop}
      (at_ : c.state = .openSent) (offered : Offered (c.negotiated message) .keepAlive c') :
      Handled ourOpen c (.bgpOpen message) c' (some stop)
  | keepsAlive (at_ : c.state = .openConfirm ∨ c.state = .established) :
      Handled ourOpen c .keepAliveTimerExpires (c.startSend .keepAlive) none
  | keepAliveStopped {c' : Connection} {stop : Stop}
      (at_ : c.state = .openConfirm ∨ c.state = .established)
      (offered : Offered c .keepAlive c') :
      Handled ourOpen c .keepAliveTimerExpires c' (some stop)
  | establishes (at_ : c.state = .openConfirm) :
      Handled ourOpen c .keepAliveMsg (c.inState .established) none
  | ends {event : ConnectionEvent} {d : Connection} (h : Fatal c.state event)
      (notified : Notified c d) : Handled ourOpen c event (d.inState .terminate) none
  | endStopped {event : ConnectionEvent} {d : Connection} {stop : Stop} (h : Fatal c.state event)
      (notified : Notified c d) : Handled ourOpen c event d (some stop)
  | endStoppedLate {d : Connection} {stop : Stop} (at_ : c.state = .openConfirm)
      (notified : Notified (c.inState .terminate) d) :
      Handled ourOpen c .holdTimerExpires d (some stop)

/-! ## The handlers do nothing else -/

/-- No message is dropped on its way. -/
def Sending.Lasts (out : Sending) : Prop :=
  ∀ message recorded, out message ≠ .cancelled recorded

/-- Every message is sent. -/
def Sending.Delivers (out : Sending) : Prop :=
  ∀ message, out message = .sent

/-- What can stop a handler: a message that could not be written, or its future was
    dropped. -/
def Stop.IsSending (out : Sending) (stop : Stop) : Prop :=
  (stop = .ofError ∧ ∃ message recorded, out message = .failed recorded) ∨
    stop = .cancelled ∧ ¬ out.Lasts

theorem Handler.bind_apply {α β : Type} (x : Handler α) (f : α → Handler β) (c : Connection) :
    (x >>= f) c = match x c with
      | .ok a c => f a c
      | .error stop c => .error stop c := by
  change EStateM.bind x f c = _
  rw [EStateM.bind]
  cases x c <;> rfl

theorem Handler.pure_apply {α : Type} (a : α) (c : Connection) :
    (pure a : Handler α) c = .ok a c :=
  rfl

theorem Handler.get_apply (c : Connection) : (get : Handler Connection) c = .ok c c :=
  rfl

theorem Handler.modify_apply (f : Connection → Connection) (c : Connection) :
    (modify f : Handler Unit) c = .ok () (f c) :=
  rfl

theorem Handler.setState_apply (state : ConnectionState) (c : Connection) :
    setState state c = .ok () (c.inState state) :=
  rfl

theorem Handler.send_cases (out : Sending) (message : BgpMessage) (c : Connection) :
    send out message c = .ok () (c.startSend message) ∨
      ∃ stop c', send out message c = .error stop c' ∧ stop.IsSending out ∧
        Offered c message c' := by
  simp only [send]
  cases sent : out message with
  | sent => exact .inl rfl
  | failed recorded =>
      refine .inr ⟨_, _, rfl, .inl ⟨rfl, message, recorded, sent⟩, ?_⟩
      cases recorded <;> simp [Offered]
  | cancelled recorded =>
      refine .inr ⟨_, _, rfl, .inr ⟨rfl, fun lasts => lasts message recorded sent⟩, ?_⟩
      cases recorded <;> simp [Offered]

theorem Handler.trySend_cases (out : Sending) (message : BgpMessage) (c : Connection) :
    (∃ c', trySend out message c = .ok () c' ∧ Offered c message c') ∨
      ∃ c', trySend out message c = .error .cancelled c' ∧ ¬ out.Lasts ∧
        Offered c message c' := by
  simp only [trySend]
  cases sent : out message with
  | sent => exact .inl ⟨_, rfl, .inr rfl⟩
  | failed recorded => exact .inl ⟨_, rfl, by cases recorded <;> simp [Offered]⟩
  | cancelled recorded =>
      refine .inr ⟨_, rfl, fun lasts => lasts message recorded sent, ?_⟩
      cases recorded <;> simp [Offered]

theorem Handler.send_delivers {out : Sending} (delivers : out.Delivers) (message : BgpMessage)
    (c : Connection) : send out message c = .ok () (c.startSend message) := by
  rw [send, delivers message]

theorem Handler.trySend_delivers {out : Sending} (delivers : out.Delivers) (message : BgpMessage)
    (c : Connection) : trySend out message c = .ok () (c.startSend message) := by
  rw [trySend, delivers message]

/-- What a handler answers, and what it has made of the connection. -/
def Handles (out : Sending) (ourOpen : BgpOpenMessage) (c : Connection) (event : ConnectionEvent)
    (result : EStateM.Result Stop Connection ConnectionEvent) : Prop :=
  (∃ c', result = .ok event c' ∧ Handled ourOpen c event c' none) ∨
    ∃ stop c', result = .error stop c' ∧ stop.IsSending out ∧ Handled ourOpen c event c' (some stop)

section Handlers

variable {out : Sending} {ourOpen : BgpOpenMessage} {c : Connection} {event : ConnectionEvent}

private theorem handles_ends (fatal : Fatal c.state event) :
    Handles out ourOpen c event ((do setState .terminate; return event : Handler _) c) :=
  .inl ⟨_, rfl, .ends fatal ⟨.ceaseError (.hardReset []), .inl rfl⟩⟩

private theorem handles_notifies (fatal : Fatal c.state event) (notif : BgpNotificationMessage) :
    Handles out ourOpen c event
      ((do trySend out (.notification notif); setState .terminate; return event : Handler _) c) := by
  rcases trySend_cases out (.notification notif) c with
    ⟨c', sent, offered⟩ | ⟨c', stopped, dropped, offered⟩
  · refine .inl ⟨c'.inState .terminate, ?_, .ends fatal ⟨notif, offered⟩⟩
    simp only [bind_apply, sent, setState_apply, pure_apply]
  · refine .inr ⟨.cancelled, c', ?_, .inr ⟨rfl, dropped⟩, .endStopped fatal ⟨notif, offered⟩⟩
    simp only [bind_apply, stopped]

private theorem handles_keepsAlive (at_ : c.state = .openConfirm ∨ c.state = .established) :
    Handles out ourOpen c .keepAliveTimerExpires
      ((do send out .keepAlive; return .keepAliveTimerExpires : Handler _) c) := by
  rcases send_cases out .keepAlive c with sent | ⟨stop, c', stopped, kind, offered⟩
  · exact .inl ⟨_, by simp only [bind_apply, sent, pure_apply], .keepsAlive at_⟩
  · refine .inr ⟨stop, c', ?_, kind, .keepAliveStopped at_ offered⟩
    simp only [bind_apply, stopped]

private theorem handles_opens (at_ : c.state = .connected)
    (h : event = .delayOpenTimerExpires ∨ event.IsTcp ∧ c.config.openDelayTimerDuration = 0) :
    Handles out ourOpen c event ((do
      modify Connection.startHoldTimer
      send out (.openMsg ourOpen)
      setState .openSent
      return event : Handler _) c) := by
  rcases send_cases out (.openMsg ourOpen) c.startHoldTimer with
    sent | ⟨stop, c', stopped, kind, offered⟩
  · refine .inl ⟨_, ?_, .opens at_ h⟩
    simp only [bind_apply, modify_apply, sent, setState_apply, pure_apply]
  · refine .inr ⟨stop, c', ?_, kind, .openStopped at_ h offered⟩
    simp only [bind_apply, modify_apply, stopped]

private theorem handles_answers {message : BgpOpenMessage} (at_ : c.state = .connected) :
    Handles out ourOpen c (.bgpOpenWithDelayOpenTimer message) ((do
      modify (·.negotiated message)
      send out (.openMsg ourOpen)
      send out .keepAlive
      setState .openConfirm
      return .bgpOpenWithDelayOpenTimer message : Handler _) c) := by
  rcases send_cases out (.openMsg ourOpen) (c.negotiated message) with
    opened | ⟨stop, c', stopped, kind, offered⟩
  · rcases send_cases out .keepAlive ((c.negotiated message).startSend (.openMsg ourOpen)) with
      kept | ⟨stop, c', stopped, kind, offered⟩
    · refine .inl ⟨_, ?_, .answers message at_⟩
      simp only [bind_apply, modify_apply, opened, kept, setState_apply, pure_apply]
    · refine .inr ⟨stop, c', ?_, kind, .answerStopped at_ (.inr offered)⟩
      simp only [bind_apply, modify_apply, opened, stopped]
  · refine .inr ⟨stop, c', ?_, kind, .answerStopped at_ (.inl offered)⟩
    simp only [bind_apply, modify_apply, stopped]

private theorem handles_tcp (at_ : c.state = .connected) (tcp : event.IsTcp) :
    Handles out ourOpen c event ((do
      if (← get).config.openDelayTimerDuration = 0 then
        modify Connection.startHoldTimer
        send out (.openMsg ourOpen)
        setState .openSent
      else
        modify fun c =>
          { c with openDelayTimer := some (.fromSecs c.config.openDelayTimerDuration.toNat) }
      return event : Handler _) c) := by
  by_cases delay : c.config.openDelayTimerDuration = 0
  · have handles : Handles out ourOpen c event _ := handles_opens at_ (.inr ⟨tcp, delay⟩)
    simpa only [bind_apply, get_apply, if_pos delay] using handles
  · refine .inl ⟨_, ?_, .waits at_ tcp delay⟩
    simp only [bind_apply, get_apply, if_neg delay, modify_apply, pure_apply]

private theorem handles_header (fatal : Fatal c.state event) (notif : BgpNotificationMessage) :
    Handles out ourOpen c event ((do
      if (← get).config.sendNotifWithoutOpen then
        trySend out (.notification notif)
      setState .terminate
      return event : Handler _) c) := by
  cases announced : c.config.sendNotifWithoutOpen with
  | true =>
      have handles : Handles out ourOpen c event _ := handles_notifies fatal notif
      simpa only [bind_apply, get_apply, announced, if_true] using handles
  | false =>
      have handles : Handles out ourOpen c event _ := handles_ends fatal
      simpa only [bind_apply, get_apply, announced, Bool.false_eq_true, if_false, pure_apply]
        using handles

private theorem handleConnectedEvent_handles (at_ : c.state = .connected) :
    Handles out ourOpen c event (handleConnectedEvent out ourOpen event c) := by
  have ends (other : ConnectionEvent) (h : other ≠ .delayOpenTimerExpires) (tcp : ¬ other.IsTcp)
      (answer : ∀ message, other ≠ .bgpOpenWithDelayOpenTimer message)
      (notif : other ≠ .notifMsgErr) : Fatal c.state other := at_ ▸ .connected h tcp answer notif
  cases event with
  | delayOpenTimerExpires => exact handles_opens at_ (.inl rfl)
  | tcpConnectionRequestAcked => exact handles_tcp at_ (.inl rfl)
  | tcpConnectionConfirmed => exact handles_tcp at_ (.inr rfl)
  | bgpOpenWithDelayOpenTimer message => exact handles_answers at_
  | bgpHeaderErr error =>
      exact handles_header (ends _ (by simp) (by simp [ConnectionEvent.IsTcp]) (by simp) (by simp))
        (.messageHeaderError error)
  | bgpOpenMsgErr error =>
      exact handles_header (ends _ (by simp) (by simp [ConnectionEvent.IsTcp]) (by simp) (by simp))
        (.openMessageError error)
  | notifMsgErr => exact .inl ⟨c, rfl, .quiet (.notifMsgErr _)⟩
  | _ => exact handles_ends (ends _ (by simp) (by simp [ConnectionEvent.IsTcp]) (by simp) (by simp))

private theorem handleOpenSentEvent_handles (at_ : c.state = .openSent) :
    Handles out ourOpen c event (handleOpenSentEvent out event c) := by
  have ends (other : ConnectionEvent) (answer : ∀ message, other ≠ .bgpOpen message)
      (notif : other ≠ .notifMsgErr) : Fatal c.state other := at_ ▸ .openSent answer notif
  cases event with
  | holdTimerExpires =>
      have fatal := ends .holdTimerExpires (by simp) (by simp)
      rcases send_cases out holdTimerExpired c with sent | ⟨stop, c', stopped, kind, offered⟩
      · refine .inl ⟨_, ?_, .ends fatal ⟨.holdTimerExpiredError (.unspecific 0 []), .inr rfl⟩⟩
        simp only [handleOpenSentEvent, bind_apply, sent, setState_apply, pure_apply]
        rfl
      · refine .inr ⟨stop, c', ?_, kind, .endStopped fatal ⟨_, offered⟩⟩
        simp only [handleOpenSentEvent, bind_apply, stopped]
  | bgpOpen message =>
      rcases send_cases out .keepAlive (c.negotiated message) with
        sent | ⟨stop, c', stopped, kind, offered⟩
      · refine .inl ⟨_, ?_, .confirms message at_⟩
        simp only [handleOpenSentEvent, bind_apply, modify_apply, sent, setState_apply, pure_apply]
      · refine .inr ⟨stop, c', ?_, kind, .confirmStopped at_ offered⟩
        simp only [handleOpenSentEvent, bind_apply, modify_apply, stopped]
  | notifMsgErr => exact .inl ⟨c, rfl, .quiet (.notifMsgErr _)⟩
  | tcpConnectionFails | notifMsgVerErr | tcpConnectionRequestAcked | tcpConnectionConfirmed =>
      exact handles_ends (ends _ (by simp) (by simp))
  | bgpHeaderErr error =>
      exact handles_notifies (ends _ (by simp) (by simp)) (.messageHeaderError error)
  | bgpOpenMsgErr error =>
      exact handles_notifies (ends _ (by simp) (by simp)) (.openMessageError error)
  | _ => exact handles_notifies (ends _ (by simp) (by simp)) _

private theorem handleOpenConfirmEvent_handles (at_ : c.state = .openConfirm) :
    Handles out ourOpen c event (handleOpenConfirmEvent out event c) := by
  have ends (other : ConnectionEvent) (timer : other ≠ .keepAliveTimerExpires)
      (message : other ≠ .keepAliveMsg) (notif : other ≠ .notifMsgErr) : Fatal c.state other :=
    at_ ▸ .openConfirm timer message notif
  cases event with
  | holdTimerExpires =>
      have fatal := ends .holdTimerExpires (by simp) (by simp) (by simp)
      rcases send_cases out holdTimerExpired (c.inState .terminate) with
        sent | ⟨stop, c', stopped, kind, offered⟩
      · refine .inl ⟨_, ?_, .ends fatal ⟨.holdTimerExpiredError (.unspecific 0 []), .inr rfl⟩⟩
        simp only [handleOpenConfirmEvent, bind_apply, setState_apply, sent, pure_apply]
        rfl
      · refine .inr ⟨stop, c', ?_, kind, .endStoppedLate at_ ⟨_, offered⟩⟩
        simp only [handleOpenConfirmEvent, bind_apply, setState_apply, stopped]
  | keepAliveTimerExpires => exact handles_keepsAlive (.inl at_)
  | keepAliveMsg => exact .inl ⟨_, rfl, .establishes at_⟩
  | notifMsgErr => exact .inl ⟨c, rfl, .quiet (.notifMsgErr _)⟩
  | notifMsgVerErr | notifMsg | tcpConnectionFails | tcpConnectionRequestAcked
  | tcpConnectionConfirmed => exact handles_ends (ends _ (by simp) (by simp) (by simp))
  | bgpHeaderErr error =>
      exact handles_notifies (ends _ (by simp) (by simp) (by simp)) (.messageHeaderError error)
  | bgpOpenMsgErr error =>
      exact handles_notifies (ends _ (by simp) (by simp) (by simp)) (.openMessageError error)
  | _ => exact handles_notifies (ends _ (by simp) (by simp) (by simp)) _

private theorem handleEstablishedEvent_handles (at_ : c.state = .established) :
    Handles out ourOpen c event (handleEstablishedEvent out event c) := by
  have ends (other : ConnectionEvent) (timer : other ≠ .keepAliveTimerExpires)
      (loud : ¬ Quiet .established other) : Fatal c.state other := at_ ▸ .established timer loud
  have quiet {other : ConnectionEvent} (h : Quiet .established other) :
      Handled ourOpen c other c none := .quiet (at_ ▸ h)
  cases event with
  | holdTimerExpires => exact handles_notifies (ends _ (by simp) (by rintro ⟨⟩)) _
  | keepAliveTimerExpires => exact handles_keepsAlive (.inr at_)
  | keepAliveMsg => exact .inl ⟨c, rfl, quiet .keepAliveMsg⟩
  | updateMsg message treatment => exact .inl ⟨c, rfl, quiet (.updateMsg message treatment)⟩
  | routeRefresh message => exact .inl ⟨c, rfl, quiet (.routeRefresh message)⟩
  | notifMsgErr => exact .inl ⟨c, rfl, quiet (.notifMsgErr _)⟩
  | _ => exact handles_ends (ends _ (by simp) (by rintro ⟨⟩))

end Handlers

/-- A handler does what `Handled` says, and answers with the event it was given. -/
theorem handleEvent_handles (out : Sending) (ourOpen : BgpOpenMessage) (event : ConnectionEvent)
    (c : Connection) : Handles out ourOpen c event (handleEvent out ourOpen event c) := by
  simp only [handleEvent, bind_apply, get_apply]
  cases at_ : c.state with
  | connected => exact handleConnectedEvent_handles at_
  | openSent => exact handleOpenSentEvent_handles at_
  | openConfirm => exact handleOpenConfirmEvent_handles at_
  | established => exact handleEstablishedEvent_handles at_
  | terminate => exact .inl ⟨c, rfl, .quiet (at_ ▸ .terminate event)⟩

end Erez.Speaker
