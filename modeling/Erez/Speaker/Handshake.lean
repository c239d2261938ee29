import Erez.Speaker.Handlers

/-! # The handshake of a connection

What is true of a connection whatever the peer sends, whatever message fails to be
written and wherever a handler is dropped: it speaks OPEN once and first, and only a
complete handshake takes it to `OpenConfirm` and on to `Established`.
-/

namespace Erez.Speaker

open Daemon

/-! ## What the operations change -/

/-- Events that neither call for an OPEN nor bring a part of the handshake. -/
def ConnectionEvent.IsPlain : ConnectionEvent → Bool
  | delayOpenTimerExpires | tcpConnectionRequestAcked | tcpConnectionConfirmed | bgpOpen _
  | bgpOpenWithDelayOpenTimer _ | keepAliveMsg => false
  | _ => true

theorem ConnectionEvent.isPlain_ofDecoderError (error : BgpCodecDecoderError) :
    (ofDecoderError error).IsPlain = true := by
  rcases error with _ | _ | error
  · rfl
  · rfl
  · cases error <;> rfl

def BgpMessage.IsNotification : BgpMessage → Bool
  | notification _ => true
  | _ => false

namespace Connection

/-- What the connection has said, notifications apart. -/
def spoken (c : Connection) : List BgpMessage :=
  c.inner.filter fun message => !message.IsNotification

section Fields

variable (c : Connection) (message : BgpMessage) (ours : BgpOpenMessage) (state : ConnectionState)

@[simp] theorem inState_state : (c.inState state).state = state := rfl

@[simp] theorem inState_spoken : (c.inState state).spoken = c.spoken := rfl

@[simp] theorem inState_inner : (c.inState state).inner = c.inner := rfl

@[simp] theorem inState_peerAsn : (c.inState state).peerAsn = c.peerAsn := rfl

@[simp] theorem inState_openDelayTimer : (c.inState state).openDelayTimer = c.openDelayTimer := rfl

@[simp] theorem startSend_state : (c.startSend message).state = c.state := by
  cases message <;> rfl

@[simp] theorem startSend_openDelayTimer :
    (c.startSend message).openDelayTimer = c.openDelayTimer := by
  cases message <;> rfl

@[simp] theorem startSend_peerAsn : (c.startSend message).peerAsn = c.peerAsn := by
  cases message <;> rfl

@[simp] theorem startSend_config : (c.startSend message).config = c.config := by
  cases message <;> rfl

@[simp] theorem startSend_keepaliveReceived :
    (c.startSend message).stats.keepaliveReceived = c.stats.keepaliveReceived := by
  cases message <;> rfl

@[simp] theorem startSend_openReceived :
    (c.startSend message).stats.openReceived = c.stats.openReceived := by
  cases message <;> rfl

theorem startSend_inner : (c.startSend message).inner = c.inner ++ [message] := by
  cases message <;> rfl

theorem startSend_spoken :
    (c.startSend message).spoken = c.spoken ++ if message.IsNotification then [] else [message] := by
  rw [spoken, startSend_inner, List.filter_append]
  cases message <;> rfl

@[simp] theorem startSend_notification_spoken (notif : BgpNotificationMessage) :
    (c.startSend (.notification notif)).spoken = c.spoken := by
  rw [startSend_spoken]
  exact List.append_nil _

@[simp] theorem startSend_openMsg_spoken :
    (c.startSend (.openMsg ours)).spoken = c.spoken ++ [.openMsg ours] :=
  startSend_spoken c (.openMsg ours)

@[simp] theorem startSend_keepAlive_spoken :
    (c.startSend .keepAlive).spoken = c.spoken ++ [.keepAlive] :=
  startSend_spoken c .keepAlive

theorem startHoldTimer_eq :
    ∃ holdTimer holdTimerDuration, c.startHoldTimer = { c with holdTimer, holdTimerDuration } := by
  rw [startHoldTimer]
  split
  · exact ⟨_, _, rfl⟩
  · exact ⟨_, _, rfl⟩

@[simp] theorem startHoldTimer_state : c.startHoldTimer.state = c.state := by
  obtain ⟨_, _, same⟩ := c.startHoldTimer_eq
  rw [same]

@[simp] theorem startHoldTimer_spoken : c.startHoldTimer.spoken = c.spoken := by
  obtain ⟨_, _, same⟩ := c.startHoldTimer_eq
  rw [same, spoken, spoken]

@[simp] theorem startHoldTimer_inner : c.startHoldTimer.inner = c.inner := by
  obtain ⟨_, _, same⟩ := c.startHoldTimer_eq
  rw [same]

@[simp] theorem startHoldTimer_openDelayTimer :
    c.startHoldTimer.openDelayTimer = c.openDelayTimer := by
  obtain ⟨_, _, same⟩ := c.startHoldTimer_eq
  rw [same]

@[simp] theorem startHoldTimer_peerAsn : c.startHoldTimer.peerAsn = c.peerAsn := by
  obtain ⟨_, _, same⟩ := c.startHoldTimer_eq
  rw [same]

end Fields

/-! ## What is negotiated -/

/-- The smaller of the two hold times; none if the peer is configured without timers. -/
def negotiatedHoldTime (config : PeerConfig) (theirs : UInt16) : Duration :=
  if config.holdTimerDuration = 0 then 0
  else .fromSecs (min config.holdTimerDuration theirs).toNat

def negotiatedKeepalive (config : PeerConfig) (timing : Timing) (theirs : UInt16) : Duration :=
  if config.holdTimerDuration = 0 then 0 else timing.third (negotiatedHoldTime config theirs)

/-- The connection has read this OPEN, and runs the timers that it calls for. -/
structure HasRead (c : Connection) (theirs : BgpOpenMessage) : Prop where
  capabilities : c.receivedCapabilities = some theirs.capabilities
  holdTime : c.peerHoldTime = some theirs.holdTime
  asn : c.peerAsn = some theirs.myAsn4
  holdTimerDuration : c.holdTimerDuration = negotiatedHoldTime c.config theirs.holdTime
  keepaliveTimerDuration :
    c.keepaliveTimerDuration = negotiatedKeepalive c.config c.timing theirs.holdTime
  holdTimer : c.holdTimerDuration ≠ 0 → c.holdTimer = some c.holdTimerDuration
  keepaliveTimer : c.keepaliveTimerDuration ≠ 0 →
    c.keepaliveTimer = some (c.timing.jittered c.keepaliveTimerDuration)

theorem negotiated_hasRead (c : Connection) (theirs : BgpOpenMessage) :
    (c.negotiated theirs).HasRead theirs := by
  by_cases zero : c.config.holdTimerDuration = 0
  · constructor <;>
      simp [negotiated, startNegotiatedTimers, setNegotiatedTimers, readOpenMsg, zero,
        negotiatedHoldTime, negotiatedKeepalive, Duration.fromSecs]
  · constructor <;>
      simp +contextual [negotiated, startNegotiatedTimers, setNegotiatedTimers, readOpenMsg, zero,
        negotiatedHoldTime, negotiatedKeepalive]

theorem HasRead.startSend {c : Connection} {theirs : BgpOpenMessage} (h : c.HasRead theirs)
    (message : BgpMessage) : (c.startSend message).HasRead theirs := by
  obtain ⟨capabilities, holdTime, asn, hold, keepalive, holdTimer, keepaliveTimer⟩ := h
  cases message <;> exact ⟨capabilities, holdTime, asn, hold, keepalive, holdTimer, keepaliveTimer⟩

theorem HasRead.inState {c : Connection} {theirs : BgpOpenMessage} (h : c.HasRead theirs)
    (state : ConnectionState) : (c.inState state).HasRead theirs := by
  obtain ⟨capabilities, holdTime, asn, hold, keepalive, holdTimer, keepaliveTimer⟩ := h
  exact ⟨capabilities, holdTime, asn, hold, keepalive, holdTimer, keepaliveTimer⟩

theorem setNegotiatedTimers_eq (c : Connection) :
    ∃ holdTimerDuration keepaliveTimerDuration,
      c.setNegotiatedTimers = { c with holdTimerDuration, keepaliveTimerDuration } := by
  rw [setNegotiatedTimers]
  split
  · exact ⟨_, _, rfl⟩
  · exact ⟨_, _, rfl⟩

theorem negotiated_eq (c : Connection) (theirs : BgpOpenMessage) :
    ∃ keepaliveTimer keepaliveTimerDuration holdTimer holdTimerDuration,
      c.negotiated theirs =
        { c with
          peerAsn := some theirs.myAsn4
          peerBgpId := some theirs.bgpId
          receivedCapabilities := some theirs.capabilities
          peerHoldTime := some theirs.holdTime
          openDelayTimer := none
          keepaliveTimer, keepaliveTimerDuration, holdTimer, holdTimerDuration } := by
  obtain ⟨_, _, same⟩ :=
    setNegotiatedTimers_eq ({ c with openDelayTimer := none }.readOpenMsg theirs)
  rw [negotiated, same]
  exact ⟨_, _, _, _, rfl⟩

@[simp] theorem negotiated_state (c : Connection) (theirs : BgpOpenMessage) :
    (c.negotiated theirs).state = c.state := by
  obtain ⟨_, _, _, _, same⟩ := c.negotiated_eq theirs
  rw [same]

@[simp] theorem negotiated_spoken (c : Connection) (theirs : BgpOpenMessage) :
    (c.negotiated theirs).spoken = c.spoken := by
  obtain ⟨_, _, _, _, same⟩ := c.negotiated_eq theirs
  rw [same, spoken, spoken]

@[simp] theorem negotiated_inner (c : Connection) (theirs : BgpOpenMessage) :
    (c.negotiated theirs).inner = c.inner := by
  obtain ⟨_, _, _, _, same⟩ := c.negotiated_eq theirs
  rw [same]

@[simp] theorem negotiated_openDelayTimer (c : Connection) (theirs : BgpOpenMessage) :
    (c.negotiated theirs).openDelayTimer = none := by
  obtain ⟨_, _, _, _, same⟩ := c.negotiated_eq theirs
  rw [same]

@[simp] theorem negotiated_stats (c : Connection) (theirs : BgpOpenMessage) :
    (c.negotiated theirs).stats = c.stats := by
  obtain ⟨_, _, _, _, same⟩ := c.negotiated_eq theirs
  rw [same]

@[simp] theorem negotiated_peerAsn (c : Connection) (theirs : BgpOpenMessage) :
    (c.negotiated theirs).peerAsn = some theirs.myAsn4 := by
  obtain ⟨_, _, _, _, same⟩ := c.negotiated_eq theirs
  rw [same]

/-! ## The invariant -/

/-- Both sides of the handshake: ours was sent before any KEEPALIVE, and theirs was read. -/
structure Confirmed (c : Connection) : Prop where
  spoken : ∃ ours kept, c.spoken = .openMsg ours :: .keepAlive :: List.replicate kept .keepAlive
  read : ∃ theirs, c.HasRead theirs
  received : 0 < c.stats.openReceived

/-- `expected` is the peer's AS number, if it is configured. -/
structure Sound (expected : Option UInt32) (c : Connection) : Prop where
  spoken : c.spoken = [] ∨
    ∃ ours kept, c.spoken = .openMsg ours :: List.replicate kept .keepAlive
  delayed : c.state = .connected → c.openDelayTimer ≠ none → c.spoken = []
  opened : c.state = .openSent → c.spoken ≠ []
  confirmed : c.state = .openConfirm ∨ c.state = .established → c.Confirmed
  established : c.state = .established → 0 < c.stats.keepaliveReceived
  asn : ∀ n, expected = some n → c.peerAsn = some n

/-- What is known of an event that comes from the connection's own stream. -/
structure Polled (c : Connection) (event : ConnectionEvent) : Prop where
  fresh : c.state = .connected →
    (event = .delayOpenTimerExpires ∨ event.IsTcp ∨
      ∃ theirs, event = .bgpOpenWithDelayOpenTimer theirs) → c.spoken = []
  undelayed : event = .delayOpenTimerExpires ∨ event.IsTcp → c.openDelayTimer = none
  received : ∀ theirs, event = .bgpOpen theirs ∨ event = .bgpOpenWithDelayOpenTimer theirs →
    0 < c.stats.openReceived ∧ (c.peerAsn = none ∨ c.peerAsn = some theirs.myAsn4)
  kept : event = .keepAliveMsg → 0 < c.stats.keepaliveReceived

variable {expected : Option UInt32} {ourOpen : BgpOpenMessage} {c c' : Connection}
  {event : ConnectionEvent}

theorem new_sound (properties : PeerProperties) (connectionType : ConnectionType)
    (config : PeerConfig) (timing : Timing)
    (static : ∀ n, expected = some n →
      properties.allowDynamicAs = false ∧ properties.peerAsn = n) :
    (new properties connectionType config timing).Sound expected where
  spoken := .inl rfl
  delayed _ _ := rfl
  opened := by rintro ⟨⟩
  confirmed := by rintro (⟨⟨⟩⟩ | ⟨⟨⟩⟩)
  established := by rintro ⟨⟩
  asn n known := by
    obtain ⟨fixed, rfl⟩ := static n known
    simp [new, fixed]

/-- A new connection, and the news that it is there. -/
theorem new_polled (properties : PeerProperties) (connectionType : ConnectionType)
    (config : PeerConfig) (timing : Timing) {event : ConnectionEvent} (tcp : event.IsTcp) :
    (new properties connectionType config timing).Polled event where
  fresh _ _ := rfl
  undelayed _ := rfl
  received theirs opens := by
    rcases tcp with rfl | rfl <;> rcases opens with h | h <;> cases h
  kept h := by rcases tcp with rfl | rfl <;> cases h

/-! ## Every operation keeps it -/

/-- More messages received, and no more said. -/
theorem Sound.receives (sound : c.Sound expected) {stats : ConnectionStats}
    (peerBgpId : Option Ipv4Addr) (opens : c.stats.openReceived ≤ stats.openReceived)
    (keeps : c.stats.keepaliveReceived ≤ stats.keepaliveReceived) :
    ({ c with stats, peerBgpId } : Connection).Sound expected where
  spoken := sound.spoken
  delayed := sound.delayed
  opened := sound.opened
  confirmed at_ := by
    obtain ⟨spoken, ⟨theirs, read⟩, received⟩ := sound.confirmed at_
    obtain ⟨capabilities, holdTime, asn, hold, keepalive, holdTimer, keepaliveTimer⟩ := read
    exact ⟨spoken, ⟨theirs, capabilities, holdTime, asn, hold, keepalive, holdTimer,
      keepaliveTimer⟩, received.trans_le opens⟩
  established at_ := (sound.established at_).trans_le keeps
  asn := sound.asn

theorem Sound.undelayed (sound : c.Sound expected) :
    ({ c with openDelayTimer := none } : Connection).Sound expected where
  spoken := sound.spoken
  delayed _ running := absurd rfl running
  opened := sound.opened
  confirmed at_ := by
    obtain ⟨spoken, ⟨theirs, read⟩, received⟩ := sound.confirmed at_
    obtain ⟨capabilities, holdTime, asn, hold, keepalive, holdTimer, keepaliveTimer⟩ := read
    exact ⟨spoken, ⟨theirs, capabilities, holdTime, asn, hold, keepalive, holdTimer,
      keepaliveTimer⟩, received⟩
  established := sound.established
  asn := sound.asn

theorem Sound.notifies (sound : c.Sound expected) (notif : BgpNotificationMessage) :
    (c.startSend (.notification notif)).Sound expected where
  spoken := by simpa using sound.spoken
  delayed := by simpa using sound.delayed
  opened := by simpa using sound.opened
  confirmed at_ := by
    obtain ⟨spoken, ⟨theirs, read⟩, received⟩ := sound.confirmed (by simpa using at_)
    exact ⟨by simpa using spoken, ⟨theirs, read.startSend _⟩, by simpa using received⟩
  established := by simpa using sound.established
  asn := by simpa using sound.asn

theorem Sound.notified (sound : c.Sound expected) {d : Connection} (notified : Notified c d) :
    d.Sound expected := by
  obtain ⟨notif, rfl | rfl⟩ := notified
  · exact sound
  · exact sound.notifies notif

theorem Sound.terminates (sound : c.Sound expected) : (c.inState .terminate).Sound expected where
  spoken := sound.spoken
  delayed := by rintro ⟨⟩
  opened := by rintro ⟨⟩
  confirmed := by rintro (⟨⟨⟩⟩ | ⟨⟨⟩⟩)
  established := by rintro ⟨⟩
  asn := sound.asn

theorem Polled.plain (h : event.IsPlain = true) : c.Polled event where
  fresh _ fresh := by
    rcases fresh with rfl | (rfl | rfl) | ⟨theirs, rfl⟩ <;> cases h
  undelayed due := by rcases due with rfl | (rfl | rfl) <;> cases h
  received theirs opens := by rcases opens with rfl | rfl <;> cases h
  kept kept := by
    subst kept
    cases h

/-- The three answers to an OPEN. -/
theorem handleOpenMessage_cases (theirs : BgpOpenMessage) (peerAsn : Option UInt32)
    (delayTimerRunning : Bool) :
    (∃ error, (handleOpenMessage theirs peerAsn delayTimerRunning).2 = .bgpOpenMsgErr error) ∨
      (peerAsn = none ∨ peerAsn = some theirs.myAsn4) ∧
        (handleOpenMessage theirs peerAsn delayTimerRunning).2 =
          if delayTimerRunning then .bgpOpenWithDelayOpenTimer theirs else .bgpOpen theirs := by
  cases peerAsn with
  | none => exact .inr ⟨.inl rfl, rfl⟩
  | some n =>
      by_cases other : n ≠ theirs.myAsn4
      · exact .inl ⟨_, by rw [handleOpenMessage, if_pos other]⟩
      · rw [handleOpenMessage, if_neg other]
        exact .inr ⟨.inr (congrArg some (not_not.mp other)), rfl⟩

theorem receive_openMsg (c : Connection) (theirs : BgpOpenMessage)
    (errors : List PathAttributeParsingError) (otherEor : Option Daemon.AddressType) :
    c.receive (.openMsg theirs) errors otherEor =
      some ({ c with
          stats := { c.stats with
            messagesReceived := c.stats.messagesReceived + 1
            openReceived := c.stats.openReceived + 1 }
          peerBgpId := some (handleOpenMessage theirs c.peerAsn c.openDelayTimer.isSome).1 },
        (handleOpenMessage theirs c.peerAsn c.openDelayTimer.isSome).2) :=
  rfl

theorem Polled.receives_open (sound : c.Sound expected) (theirs : BgpOpenMessage)
    {d : Connection} (received : 0 < d.stats.openReceived) (asn : d.peerAsn = c.peerAsn)
    (state : d.state = c.state) (spoken : d.spoken = c.spoken) :
    d.Polled (handleOpenMessage theirs c.peerAsn c.openDelayTimer.isSome).2 := by
  rcases handleOpenMessage_cases theirs c.peerAsn c.openDelayTimer.isSome with
    ⟨error, refused⟩ | ⟨expected, accepted⟩
  · rw [refused]
    exact .plain rfl
  · rw [accepted]
    by_cases running : c.openDelayTimer.isSome = true
    · rw [if_pos running]
      refine ⟨fun at_ _ => ?_, by simp [ConnectionEvent.IsTcp],
        fun other opens => ⟨received, ?_⟩, by simp⟩
      · rw [spoken]
        exact sound.delayed (state ▸ at_) (Option.isSome_iff_ne_none.mp running)
      · obtain rfl : theirs = other := by simpa using opens
        rwa [asn]
    · rw [if_neg running]
      refine ⟨fun _ fresh => ?_, by simp [ConnectionEvent.IsTcp],
        fun other opens => ⟨received, ?_⟩, by simp⟩
      · simp [ConnectionEvent.IsTcp] at fresh
      · obtain rfl : theirs = other := by simpa using opens
        rwa [asn]

/-- What comes of the stream keeps the invariant, and is due. -/
theorem Sound.polls (sound : c.Sound expected) {stimulus : Stimulus}
    (polled : c.pollNext stimulus = some (c', event)) :
    c'.Sound expected ∧ c'.Polled event := by
  cases stimulus with
  | keepaliveTick =>
      simp only [pollNext] at polled
      split at polled
      · obtain ⟨rfl, rfl⟩ := Prod.mk.inj (Option.some.inj polled)
        exact ⟨sound, .plain rfl⟩
      · cases polled
  | openDelayTick =>
      simp only [pollNext] at polled
      split at polled
      · rename_i running
        obtain ⟨rfl, rfl⟩ := Prod.mk.inj (Option.some.inj polled)
        refine ⟨sound.undelayed, fun at_ _ => ?_, fun _ => rfl, by simp, by simp⟩
        exact sound.delayed at_ (Option.isSome_iff_ne_none.mp running)
      · cases polled
  | holdTick =>
      simp only [pollNext] at polled
      split at polled
      · obtain ⟨rfl, rfl⟩ := Prod.mk.inj (Option.some.inj polled)
        exact ⟨sound, .plain rfl⟩
      · cases polled
  | message message errors otherEor =>
      cases message with
      | openMsg theirs =>
          rw [pollNext, receive_openMsg] at polled
          obtain ⟨rfl, rfl⟩ := Prod.mk.inj (Option.some.inj polled)
          exact ⟨sound.receives _ (Nat.le_succ _) le_rfl,
            .receives_open sound theirs (Nat.succ_pos _) rfl rfl rfl⟩
      | update update =>
          obtain ⟨event', -, same⟩ := Option.map_eq_some_iff.mp polled
          obtain ⟨rfl, rfl⟩ := Prod.mk.inj same
          refine ⟨sound.receives c.peerBgpId le_rfl le_rfl, .plain ?_⟩
          rcases event' with _ | (_ | _) <;> rfl
      | notification notif =>
          simp only [pollNext, receive] at polled
          split at polled
          · obtain ⟨rfl, rfl⟩ := Prod.mk.inj (Option.some.inj polled)
            exact ⟨sound.receives c.peerBgpId le_rfl le_rfl, .plain rfl⟩
          · obtain ⟨rfl, rfl⟩ := Prod.mk.inj (Option.some.inj polled)
            exact ⟨sound.receives c.peerBgpId le_rfl le_rfl, .plain rfl⟩
      | keepAlive =>
          obtain ⟨rfl, rfl⟩ := Prod.mk.inj (Option.some.inj polled)
          refine ⟨sound.receives c.peerBgpId le_rfl (Nat.le_succ _), ?_, ?_, by simp, ?_⟩
          · simp [ConnectionEvent.IsTcp]
          · simp [ConnectionEvent.IsTcp]
          · exact fun _ => Nat.succ_pos _
      | routeRefresh refresh =>
          obtain ⟨rfl, rfl⟩ := Prod.mk.inj (Option.some.inj polled)
          exact ⟨sound.receives c.peerBgpId le_rfl le_rfl, .plain rfl⟩
  | undecodable error =>
      obtain ⟨rfl, rfl⟩ := Prod.mk.inj (Option.some.inj polled)
      exact ⟨sound, .plain (ConnectionEvent.isPlain_ofDecoderError error)⟩
  | ended =>
      obtain ⟨rfl, rfl⟩ := Prod.mk.inj (Option.some.inj polled)
      exact ⟨sound, .plain rfl⟩

/-! ## The handlers keep it -/

theorem Sound.startsHoldTimer (sound : c.Sound expected) (at_ : c.state = .connected) :
    c.startHoldTimer.Sound expected where
  spoken := by simpa using sound.spoken
  delayed := by simpa using sound.delayed
  opened := by simp [at_]
  confirmed := by simp [at_]
  established := by simp [at_]
  asn := by simpa using sound.asn

theorem Sound.opens (sound : c.Sound expected) (at_ : c.state = .connected)
    (fresh : c.spoken = []) (undelayed : c.openDelayTimer = none) (ours : BgpOpenMessage) :
    (c.startSend (.openMsg ours)).Sound expected where
  spoken := .inr ⟨ours, 0, by simp [fresh]⟩
  delayed := by simp [undelayed]
  opened := by simp [at_]
  confirmed := by simp [at_]
  established := by simp [at_]
  asn := by simpa using sound.asn

theorem Sound.negotiates (sound : c.Sound expected) {theirs : BgpOpenMessage}
    (at_ : c.state = .connected ∨ c.state = .openSent)
    (asn : c.peerAsn = none ∨ c.peerAsn = some theirs.myAsn4) :
    (c.negotiated theirs).Sound expected where
  spoken := by simpa using sound.spoken
  delayed := by simp
  opened := by simpa using sound.opened
  confirmed := by rcases at_ with h | h <;> simp [h]
  established := by rcases at_ with h | h <;> simp [h]
  asn n known := by
    have same := sound.asn n known
    rcases asn with unknown | accepted
    · rw [unknown] at same
      cases same
    · rw [negotiated_peerAsn, ← accepted, same]

theorem Sound.keepsAlive (sound : c.Sound expected) (opened : c.spoken ≠ []) :
    (c.startSend .keepAlive).Sound expected where
  spoken := by
    obtain ⟨ours, kept, said⟩ := sound.spoken.resolve_left opened
    refine .inr ⟨ours, kept + 1, ?_⟩
    rw [startSend_keepAlive_spoken, said, List.replicate_succ']
    rfl
  delayed at_ running := absurd (sound.delayed (by simpa using at_) (by simpa using running)) opened
  opened _ := by simp
  confirmed at_ := by
    obtain ⟨⟨ours, kept, said⟩, ⟨theirs, read⟩, received⟩ := sound.confirmed (by simpa using at_)
    refine ⟨⟨ours, kept + 1, ?_⟩, ⟨theirs, read.startSend _⟩, by simpa using received⟩
    rw [startSend_keepAlive_spoken, said, List.replicate_succ']
    rfl
  established := by simpa using sound.established
  asn := by simpa using sound.asn

theorem Sound.inOpenSent (sound : c.Sound expected) (opened : c.spoken ≠ []) :
    (c.inState .openSent).Sound expected where
  spoken := sound.spoken
  delayed := by rintro ⟨⟩
  opened _ := opened
  confirmed := by rintro (⟨⟨⟩⟩ | ⟨⟨⟩⟩)
  established := by rintro ⟨⟩
  asn := sound.asn

theorem Sound.confirms (sound : c.Sound expected) {theirs : BgpOpenMessage}
    (opened : c.spoken ≠ []) (read : c.HasRead theirs) (received : 0 < c.stats.openReceived) :
    ((c.startSend .keepAlive).inState .openConfirm).Sound expected := by
  have kept := sound.keepsAlive opened
  obtain ⟨ours, n, said⟩ := sound.spoken.resolve_left opened
  refine ⟨kept.spoken, by rintro ⟨⟩, by rintro ⟨⟩, fun _ => ⟨⟨ours, n, ?_⟩, ?_, ?_⟩,
    by rintro ⟨⟩, kept.asn⟩
  · rw [inState_spoken, startSend_keepAlive_spoken, said, List.cons_append,
      ← List.replicate_succ', List.replicate_succ]
  · exact ⟨theirs, (read.startSend _).inState _⟩
  · exact lt_of_lt_of_eq received (startSend_openReceived c _).symm

theorem Sound.establishes (sound : c.Sound expected) (at_ : c.state = .openConfirm)
    (kept : 0 < c.stats.keepaliveReceived) : (c.inState .established).Sound expected := by
  obtain ⟨spoken, ⟨theirs, read⟩, received⟩ := sound.confirmed (.inl at_)
  refine ⟨sound.spoken, by rintro ⟨⟩, by rintro ⟨⟩, fun _ => ?_, fun _ => kept, sound.asn⟩
  exact ⟨spoken, ⟨theirs, read.inState _⟩, received⟩

/-- A handler keeps the invariant, wherever it stops. -/
theorem Sound.handled (sound : c.Sound expected) (polled : c.Polled event) {stop : Option Stop}
    (handled : Handled ourOpen c event c' stop) : c'.Sound expected := by
  cases handled with
  | quiet h => exact sound
  | waits at_ tcp delay =>
      refine ⟨sound.spoken, fun _ _ => polled.fresh at_ (.inr (.inl tcp)), ?_, ?_, ?_, sound.asn⟩
      · simp [at_]
      · simp [at_]
      · simp [at_]
  | opens at_ h =>
      have fresh := polled.fresh at_ (h.imp id fun tcp => .inl tcp.1)
      have undelayed := polled.undelayed (h.imp id And.left)
      refine ((sound.startsHoldTimer at_).opens ?_ ?_ ?_ ourOpen).inOpenSent ?_ <;>
        simp [at_, fresh, undelayed]
  | openStopped at_ h offered =>
      have fresh := polled.fresh at_ (h.imp id fun tcp => .inl tcp.1)
      have undelayed := polled.undelayed (h.imp id And.left)
      rcases offered with rfl | rfl
      · exact sound.startsHoldTimer at_
      · exact (sound.startsHoldTimer at_).opens (by simp [at_]) (by simp [fresh])
          (by simp [undelayed]) ourOpen
  | answers theirs at_ =>
      have fresh := polled.fresh at_ (.inr (.inr ⟨theirs, rfl⟩))
      obtain ⟨received, asn⟩ := polled.received theirs (.inr rfl)
      have opened := (sound.negotiates (.inl at_) asn).opens (by simp [at_]) (by simp [fresh])
        (by simp) ourOpen
      exact opened.confirms (by simp) ((c.negotiated_hasRead theirs).startSend _)
        (by simpa using received)
  | @answerStopped theirs _ _ at_ offered =>
      have fresh := polled.fresh at_ (.inr (.inr ⟨theirs, rfl⟩))
      obtain ⟨received, asn⟩ := polled.received theirs (.inr rfl)
      have read := sound.negotiates (.inl at_) asn
      have opened := read.opens (by simp [at_]) (by simp [fresh]) (by simp) ourOpen
      rcases offered with (rfl | rfl) | rfl | rfl
      · exact read
      · exact opened
      · exact opened
      · exact opened.keepsAlive (by simp)
  | confirms theirs at_ =>
      obtain ⟨received, asn⟩ := polled.received theirs (.inl rfl)
      exact (sound.negotiates (.inr at_) asn).confirms (by simpa using sound.opened at_)
        (c.negotiated_hasRead theirs) (by simpa using received)
  | @confirmStopped theirs _ _ at_ offered =>
      obtain ⟨received, asn⟩ := polled.received theirs (.inl rfl)
      have read := sound.negotiates (.inr at_) asn
      rcases offered with rfl | rfl
      · exact read
      · exact read.keepsAlive (by simpa using sound.opened at_)
  | keepsAlive at_ =>
      obtain ⟨ours, kept, said⟩ := (sound.confirmed at_).spoken
      exact sound.keepsAlive (by simp [said])
  | keepAliveStopped at_ offered =>
      obtain ⟨ours, kept, said⟩ := (sound.confirmed at_).spoken
      rcases offered with rfl | rfl
      · exact sound
      · exact sound.keepsAlive (by simp [said])
  | establishes at_ => exact sound.establishes at_ (polled.kept rfl)
  | ends h notified => exact (sound.notified notified).terminates
  | endStopped h notified => exact sound.notified notified
  | endStoppedLate at_ notified => exact sound.terminates.notified notified

end Connection

end Erez.Speaker
