import Erez.Speaker.Peer

/-! # What follows an event

The big table of the peer, read backwards: what an event on the main connection can
make of the peer, and that no event that comes of the connection's own stream finds
no entry in it.
-/

namespace Erez.Speaker

open Daemon

/-- Where the machine is once the connection has got here; at first it keeps the state it
    was in. -/
def ConnectionState.fsmState? : ConnectionState → Option FsmState
  | connected | terminate => none
  | openSent => some .openSent
  | openConfirm => some .openConfirm
  | established => some .established

namespace Peer

/-- The peer after an event on its main connection, by the states of the connection
    before and after it. -/
inductive Followed (p : Peer) (before after : ConnectionState) : Peer → Prop
  | stays (same : after = before) (connectRetryTimer : Option Duration)
      (timer : connectRetryTimer = none ∨ connectRetryTimer = p.connectRetryTimer) :
      Followed p before after { p with connectRetryTimer }
  | advances {fsmState : FsmState} (reached : after.fsmState? = some fsmState)
      (connectRetryTimer : Option Duration)
      (timer : connectRetryTimer = none ∨ connectRetryTimer = p.connectRetryTimer) :
      Followed p before after { p with fsmState, connectRetryTimer }
  | ends {fsmState : FsmState} (down : fsmState = .idle ∨ fsmState = .active)
      (connectRetryTimer : Option Duration) (connectRetryCounter : ℕ) :
      Followed p before after
        { p with connection := none, fsmState, connectRetryTimer, connectRetryCounter }

theorem afterEvent_followed {p q : Peer} {conn : Connection} {before : ConnectionState}
    {event : ConnectionEvent} (h : p.afterEvent conn before event = .ok q) :
    p.Followed before conn.state q := by
  have failed : p.Followed before conn.state p.failed := .ends (.inl rfl) none _
  have timer : p.connectRetryTimer = none ∨ p.connectRetryTimer = p.connectRetryTimer := .inr rfl
  have same (at_ : conn.state = before) : p.Followed before conn.state p := .stays at_ _ timer
  generalize reached : conn.state = after at *
  rw [afterEvent.eq_def] at h
  simp only [reached] at h
  cases before with
  | connected =>
      cases after with
      | connected =>
          cases event with
          | tcpConnectionRequestAcked | tcpConnectionConfirmed =>
              dsimp only at h
              split at h
              · cases h
              · cases h
                exact .stays rfl none (.inl rfl)
          | notifMsgErr =>
              cases h
              exact same rfl
          | _ => cases h
      | openSent =>
          cases event with
          | tcpConnectionRequestAcked | tcpConnectionConfirmed =>
              cases h
              exact .advances rfl none (.inl rfl)
          | delayOpenTimerExpires =>
              cases h
              exact .advances rfl _ timer
          | _ => cases h
      | openConfirm =>
          cases event with
          | bgpOpen | bgpOpenWithDelayOpenTimer =>
              cases h
              exact .advances rfl none (.inl rfl)
          | _ => cases h
      | established => cases h
      | terminate =>
          cases event with
          | tcpConnectionFails =>
              dsimp only at h
              split at h
              · cases h
                exact .ends (.inr rfl) _ _
              · split at h
                · cases h
                  exact .ends (.inl rfl) _ _
                · cases h
                  exact .ends (.inl rfl) _ _
          | notifMsgVerErr =>
              dsimp only at h
              split at h
              · cases h
                exact .ends (.inl rfl) _ _
              · cases h
                exact .ends (.inl rfl) _ _
          | tcpConnectionRequestAcked | tcpConnectionConfirmed | delayOpenTimerExpires
          | bgpOpenWithDelayOpenTimer | notifMsgErr => cases h
          | _ =>
              cases h
              exact failed
  | openSent =>
      cases after with
      | connected | established => cases h
      | openSent =>
          cases event with
          | notifMsgErr =>
              cases h
              exact same rfl
          | _ => cases h
      | openConfirm =>
          cases event with
          | bgpOpen =>
              cases h
              exact .advances rfl none (.inl rfl)
          | _ => cases h
      | terminate =>
          cases event with
          | holdTimerExpires | notifMsgVerErr =>
              cases h
              exact .ends (.inl rfl) _ _
          | tcpConnectionFails =>
              cases h
              exact .ends (.inr rfl) _ _
          | tcpConnectionRequestAcked | tcpConnectionConfirmed | bgpOpen | notifMsgErr => cases h
          | _ =>
              cases h
              exact failed
  | openConfirm =>
      cases after with
      | connected | openSent => cases h
      | openConfirm =>
          cases event with
          | keepAliveTimerExpires | notifMsgErr =>
              cases h
              exact same rfl
          | _ => cases h
      | established =>
          cases event with
          | keepAliveMsg =>
              cases h
              exact .advances rfl _ timer
          | _ => cases h
      | terminate =>
          cases event with
          | notifMsgVerErr =>
              cases h
              exact .ends (.inl rfl) _ _
          | tcpConnectionRequestAcked | tcpConnectionConfirmed | keepAliveTimerExpires
          | keepAliveMsg | notifMsgErr => cases h
          | _ =>
              cases h
              exact failed
  | established =>
      cases after with
      | connected | openSent | openConfirm => cases h
      | established =>
          cases event with
          | keepAliveTimerExpires | keepAliveMsg | updateMsg | routeRefresh | notifMsgErr =>
              cases h
              exact same rfl
          | notifMsg | notifMsgVerErr =>
              cases h
              exact failed
          | _ => cases h
      | terminate =>
          cases event with
          | tcpConnectionRequestAcked | tcpConnectionConfirmed | keepAliveTimerExpires
          | keepAliveMsg | updateMsg | routeRefresh | notifMsgErr => cases h
          | _ =>
              cases h
              exact failed
  | terminate => cases after <;> cases h

/-- Nothing that comes of a connection's own stream is invalid, unless the connection has
    ended before. -/
theorem afterEvent_valid (p : Peer) {ours : BgpOpenMessage} {c c' : Connection}
    {event : ConnectionEvent} (handled : Handled ours c event c' none) (tcp : ¬ event.IsTcp)
    (live : c.state ≠ .terminate) : ∃ q, p.afterEvent c' c.state event = .ok q := by
  cases handled with
  | quiet h =>
      cases at_ : c.state with
      | terminate => exact absurd at_ live
      | established =>
          rw [at_] at h
          cases h <;> simp [afterEvent, at_]
      | _ =>
          rw [at_] at h
          cases h
          simp [afterEvent, at_]
  | waits at_ tcp' => exact absurd tcp' tcp
  | opens at_ h =>
      obtain rfl := h.resolve_right fun tcp' => tcp tcp'.1
      simp [afterEvent, at_]
  | answers theirs at_ => simp [afterEvent, at_]
  | confirms theirs at_ => simp [afterEvent, at_]
  | keepsAlive at_ => rcases at_ with at_ | at_ <;> simp [afterEvent, at_]
  | establishes at_ => simp [afterEvent, at_]
  | ends fatal notified =>
      cases at_ : c.state with
      | terminate => exact absurd at_ live
      | connected =>
          rw [at_] at fatal
          cases fatal with
          | connected timer tcp answer notif =>
              cases event with
              | delayOpenTimerExpires => exact absurd rfl timer
              | tcpConnectionRequestAcked => exact absurd (.inl rfl) tcp
              | tcpConnectionConfirmed => exact absurd (.inr rfl) tcp
              | bgpOpenWithDelayOpenTimer theirs => exact absurd rfl (answer theirs)
              | notifMsgErr => exact absurd rfl notif
              | tcpConnectionFails =>
                  simp only [afterEvent, Connection.inState_state]
                  split
                  · exact ⟨_, rfl⟩
                  · exact ⟨_, rfl⟩
              | _ => exact ⟨_, rfl⟩
      | openSent =>
          rw [at_] at fatal
          cases fatal with
          | openSent answer notif =>
              cases event with
              | tcpConnectionRequestAcked => exact absurd (.inl rfl) tcp
              | tcpConnectionConfirmed => exact absurd (.inr rfl) tcp
              | bgpOpen theirs => exact absurd rfl (answer theirs)
              | notifMsgErr => exact absurd rfl notif
              | _ => exact ⟨_, rfl⟩
      | openConfirm =>
          rw [at_] at fatal
          cases fatal with
          | openConfirm timer message notif =>
              cases event with
              | tcpConnectionRequestAcked => exact absurd (.inl rfl) tcp
              | tcpConnectionConfirmed => exact absurd (.inr rfl) tcp
              | keepAliveTimerExpires => exact absurd rfl timer
              | keepAliveMsg => exact absurd rfl message
              | notifMsgErr => exact absurd rfl notif
              | _ => exact ⟨_, rfl⟩
      | established =>
          rw [at_] at fatal
          cases fatal with
          | established timer loud =>
              cases event with
              | tcpConnectionRequestAcked => exact absurd (.inl rfl) tcp
              | tcpConnectionConfirmed => exact absurd (.inr rfl) tcp
              | keepAliveTimerExpires => exact absurd rfl timer
              | keepAliveMsg => exact absurd .keepAliveMsg loud
              | updateMsg message treatment => exact absurd (.updateMsg message treatment) loud
              | routeRefresh message => exact absurd (.routeRefresh message) loud
              | notifMsgErr => exact absurd (.notifMsgErr _) loud
              | _ => exact ⟨_, rfl⟩

end Peer

end Erez.Speaker
