import Erez.Speaker.Treatment

/-! # One connection to a peer

The state machine of a connection, from the TCP connection to its end. It is fed with
events: messages, timers and errors of the stream. A handler may fail at a message it
sends, or be dropped while the message is on its way; what it has changed by then
stays.
-/

namespace Erez.Speaker

open Daemon

/-! ## Configuration -/

/-- In nanoseconds. -/
abbrev Duration := ℕ

def Duration.fromSecs (secs : ℕ) : Duration :=
  secs * 10 ^ 9

structure PeerProperties where
  myAsn : UInt32
  peerAsn : UInt32
  myBgpId : Ipv4Addr
  allowDynamicAs : Bool
  deriving DecidableEq

structure PeerConfig where
  sendNotifWithoutOpen : Bool
  connectRetryDuration : UInt16
  openDelayTimerDuration : UInt16
  holdTimerDuration : UInt16
  holdTimerDurationLargeValue : UInt16
  keepaliveTimerDuration : UInt16
  passiveTcpEstablishment : Bool
  collisionDetectEstablishedState : Bool
  deriving DecidableEq

def PeerConfig.default : PeerConfig :=
  ⟨true, 10, 0, 180, 240, 30, false, false⟩

/-- The operations on durations that the code does in single precision: a third, and
    the factor drawn for the connection. -/
structure Timing where
  third : Duration → Duration
  jittered : Duration → Duration

/-! ## Messages and events -/

inductive ConnectionState where
  | connected
  | openSent
  | openConfirm
  | established
  | terminate
  deriving DecidableEq

inductive ConnectionType where
  | active
  | passive
  deriving DecidableEq

inductive FsmStateError where
  | bgpMessageWritingError
  | invalidConnectionStateTransition (event : BgpEvent) (fsm : FsmState)
      (before after : ConnectionState)
  deriving DecidableEq

/-- What ends a handler early: an error, or its future is dropped while a message is
    being sent. -/
inductive Stop where
  | error (error : FsmStateError)
  | cancelled
  deriving DecidableEq

/-- What becomes of a message: `recorded` says whether the stream had taken it when
    the sending stopped. -/
inductive SendOutcome where
  | sent
  | failed (recorded : Bool)
  | cancelled (recorded : Bool)
  deriving DecidableEq

/-- What the stream of a connection brings. The answer for an End-of-RIB of a family
    that the daemon does not route comes with the message. -/
inductive Stimulus where
  | keepaliveTick
  | openDelayTick
  | holdTick
  | message (message : BgpMessage) (errors : List PathAttributeParsingError)
      (otherEor : Option Daemon.AddressType)
  | undecodable (error : BgpCodecDecoderError)
  | ended
  deriving DecidableEq

structure ConnectionStats where
  created : ℕ := 0
  messagesReceived : ℕ := 0
  messagesSent : ℕ := 0
  openReceived : ℕ := 0
  openSent : ℕ := 0
  updateReceived : ℕ := 0
  updateSent : ℕ := 0
  keepaliveReceived : ℕ := 0
  keepaliveSent : ℕ := 0
  notificationReceived : ℕ := 0
  notificationSent : ℕ := 0
  routeRefreshReceived : ℕ := 0
  routeRefreshSent : ℕ := 0
  deriving DecidableEq

/-- A timer that runs is its period. `inner` is what the stream was given to send. -/
structure Connection where
  state : ConnectionState
  connectionType : ConnectionType
  config : PeerConfig
  peerAsn : Option UInt32
  peerBgpId : Option Ipv4Addr
  sentCapabilities : Option (List BgpCapability)
  receivedCapabilities : Option (List BgpCapability)
  peerHoldTime : Option UInt16
  inner : List BgpMessage
  stats : ConnectionStats
  keepaliveTimer : Option Duration
  keepaliveTimerDuration : Duration
  openDelayTimer : Option Duration
  holdTimer : Option Duration
  holdTimerDuration : Duration
  timing : Timing

namespace Connection

def new (properties : PeerProperties) (connectionType : ConnectionType) (config : PeerConfig)
    (timing : Timing) : Connection where
  state := .connected
  connectionType
  config
  peerAsn := if properties.allowDynamicAs then none else some properties.peerAsn
  peerBgpId := none
  sentCapabilities := none
  receivedCapabilities := none
  peerHoldTime := none
  inner := []
  stats := {}
  keepaliveTimer := none
  keepaliveTimerDuration := .fromSecs config.keepaliveTimerDuration.toNat
  openDelayTimer := none
  holdTimer := none
  holdTimerDuration := .fromSecs config.holdTimerDuration.toNat
  timing

def inState (c : Connection) (state : ConnectionState) : Connection :=
  { c with state }

def readOpenMsg (c : Connection) (message : BgpOpenMessage) : Connection :=
  { c with
    peerAsn := some message.myAsn4
    peerBgpId := some message.bgpId
    receivedCapabilities := some message.capabilities
    peerHoldTime := some message.holdTime }

def setNegotiatedTimers (c : Connection) : Connection :=
  -- Peer is configured not to use any timers.
  if c.config.holdTimerDuration = 0 then
    { c with holdTimerDuration := .fromSecs 0, keepaliveTimerDuration := .fromSecs 0 }
  else
    let holdTimerDuration : Duration :=
      match c.peerHoldTime with
      | some receivedHoldTime => .fromSecs (min c.config.holdTimerDuration receivedHoldTime).toNat
      | none => .fromSecs c.config.holdTimerDurationLargeValue.toNat
    { c with
      holdTimerDuration
      keepaliveTimerDuration := c.timing.third holdTimerDuration }

def startHoldTimer (c : Connection) : Connection :=
  if c.config.holdTimerDurationLargeValue ≠ 0 then
    let holdTimerDuration : Duration := .fromSecs c.config.holdTimerDurationLargeValue.toNat
    { c with holdTimerDuration, holdTimer := some holdTimerDuration }
  else c

/-- The keepalive and the hold timer are started with what was negotiated. -/
def startNegotiatedTimers (c : Connection) : Connection :=
  { c with
    keepaliveTimer :=
      if c.keepaliveTimerDuration ≠ 0 then some (c.timing.jittered c.keepaliveTimerDuration)
      else c.keepaliveTimer
    holdTimer := if c.holdTimerDuration ≠ 0 then some c.holdTimerDuration else c.holdTimer }

/-! ## Sending and receiving -/

/-- `start_send`: the stream takes the message, and it is noted. -/
def startSend (c : Connection) (message : BgpMessage) : Connection :=
  let stats := { c.stats with messagesSent := c.stats.messagesSent + 1 }
  let c := { c with inner := c.inner ++ [message] }
  match message with
  | .openMsg message =>
      { c with
        stats := { stats with openSent := stats.openSent + 1 }
        sentCapabilities := some message.capabilities }
  | .update _ => { c with stats := { stats with updateSent := stats.updateSent + 1 } }
  | .notification _ =>
      { c with stats := { stats with notificationSent := stats.notificationSent + 1 } }
  | .keepAlive => { c with stats := { stats with keepaliveSent := stats.keepaliveSent + 1 } }
  | .routeRefresh _ =>
      { c with stats := { stats with routeRefreshSent := stats.routeRefreshSent + 1 } }

/-- `handle_open_message`. -/
def handleOpenMessage (message : BgpOpenMessage) (peerAsn : Option UInt32)
    (delayTimerRunning : Bool) : Ipv4Addr × ConnectionEvent :=
  let event : ConnectionEvent :=
    if delayTimerRunning then .bgpOpenWithDelayOpenTimer message else .bgpOpen message
  match peerAsn with
  | some peerAsn =>
      if peerAsn ≠ message.myAsn4 then
        (message.bgpId,
          .bgpOpenMsgErr (.badPeerAs (Lib.ByteParser.toBigEndian 4 peerAsn.toNat)))
      else (message.bgpId, event)
  | none => (message.bgpId, event)

/-- The events of the UPDATE validator. -/
def eventOfUpdate : Daemon.ConnectionEvent → ConnectionEvent
  | .updateMsg message treatment => .updateMsg message treatment
  | .updateMsgErr (.malformedAttributeList value) =>
      .updateMsgErr (.malformedAttributeList value)
  | .updateMsgErr (.missingWellKnownAttribute value) =>
      .updateMsgErr (.missingWellKnownAttribute value)

/-- A message that was read: the event it is, and what is noted of it. -/
def receive (c : Connection) (message : BgpMessage) (errors : List PathAttributeParsingError)
    (otherEor : Option Daemon.AddressType) : Option (Connection × ConnectionEvent) :=
  let stats := { c.stats with messagesReceived := c.stats.messagesReceived + 1 }
  match message with
  | .openMsg message =>
      let stats := { stats with openReceived := stats.openReceived + 1 }
      let (peerBgpId, event) := handleOpenMessage message c.peerAsn c.openDelayTimer.isSome
      some ({ c with stats, peerBgpId := some peerBgpId }, event)
  | .update update =>
      let stats := { stats with updateReceived := stats.updateReceived + 1 }
      (handleUpdateMessage otherEor update (updateTreatment errors)).map fun event =>
        ({ c with stats }, eventOfUpdate event)
  | .notification notif =>
      let stats := { stats with notificationReceived := stats.notificationReceived + 1 }
      -- Version errors are an event of their own.
      match notif with
      | .openMessageError (.unsupportedVersionNumber _) => some ({ c with stats }, .notifMsgVerErr)
      | _ => some ({ c with stats }, .notifMsg notif)
  | .routeRefresh refresh =>
      let stats := { stats with routeRefreshReceived := stats.routeRefreshReceived + 1 }
      some ({ c with stats }, .routeRefresh refresh)
  | .keepAlive =>
      let stats := { stats with keepaliveReceived := stats.keepaliveReceived + 1 }
      some ({ c with stats }, .keepAliveMsg)

/-- `poll_next`; nothing comes of a timer that does not run. -/
def pollNext (c : Connection) : Stimulus → Option (Connection × ConnectionEvent)
  | .keepaliveTick => if c.keepaliveTimer.isSome then some (c, .keepAliveTimerExpires) else none
  | .openDelayTick =>
      if c.openDelayTimer.isSome then
        some ({ c with openDelayTimer := none }, .delayOpenTimerExpires)
      else none
  | .holdTick => if c.holdTimer.isSome then some (c, .holdTimerExpires) else none
  | .message message errors otherEor => c.receive message errors otherEor
  | .undecodable error => some (c, .ofDecoderError error)
  | .ended => some (c, .tcpConnectionFails)

end Connection

/-! ## Handlers -/

/-- A handler keeps what it has changed when it stops early. -/
abbrev Handler := EStateM Stop Connection

/-- The world's answer to each message that is sent in one step. -/
abbrev Sending := BgpMessage → SendOutcome

def Stop.ofError : Stop :=
  .error .bgpMessageWritingError

namespace Handler

/-- `self.send(..).await?`. -/
def send (out : Sending) (message : BgpMessage) : Handler Unit := fun c =>
  match out message with
  | .sent => .ok () (c.startSend message)
  | .failed recorded => .error .ofError (if recorded then c.startSend message else c)
  | .cancelled recorded => .error .cancelled (if recorded then c.startSend message else c)

/-- `self.send(..).await`, whose error is only logged. -/
def trySend (out : Sending) (message : BgpMessage) : Handler Unit := fun c =>
  match out message with
  | .sent => .ok () (c.startSend message)
  | .failed recorded => .ok () (if recorded then c.startSend message else c)
  | .cancelled recorded => .error .cancelled (if recorded then c.startSend message else c)

def setState (state : ConnectionState) : Handler Unit :=
  modify (·.inState state)

end Handler

end Erez.Speaker
