import Erez.Speaker.Handshake

/-! # A peer

The task of one peer drives at most two connections: the main one, and a second one
that is tracked until the collision of the two is resolved. It takes one step at a
time: an administrative event, an answer to its dialing, a timer, or something on a
connection. Between two steps, and wherever a message is on its way, the step in
progress can be dropped for an event that has come in.
-/

namespace Erez.Speaker

open Daemon

/-! ## The policy -/

/-- Stands for a number that does not fit in two octets. -/
def asTrans : UInt16 := 23456

structure EchoCapabilitiesPolicy where
  myAsn : UInt32
  sendAsn4CapByDefault : Bool
  myBgpId : Ipv4Addr
  remoteAs : Option UInt32
  holdTimerDuration : UInt16
  capabilities : List BgpCapability
  rejectCapabilities : List BgpCapability
  peerCapabilities : List BgpCapability
  deriving DecidableEq

namespace EchoCapabilitiesPolicy

def new (myAsn : UInt32) (sendAsn4CapByDefault : Bool) (myBgpId : Ipv4Addr)
    (holdTimerDuration : UInt16) (capabilities rejectCapabilities : List BgpCapability) :
    EchoCapabilitiesPolicy :=
  ⟨myAsn, sendAsn4CapByDefault, myBgpId, none, holdTimerDuration, capabilities,
    rejectCapabilities, []⟩

def openMessage (policy : EchoCapabilitiesPolicy) : BgpOpenMessage :=
  let asn4Cap : BgpCapability := .fourOctetAs policy.myAsn
  let myAsn := if policy.myAsn > 65535 then asTrans else policy.myAsn.toUInt16
  -- Make sure the ASN4 capability is inserted only once.
  let capabilities :=
    if (policy.sendAsn4CapByDefault || myAsn = asTrans) && !policy.capabilities.contains asn4Cap
    then asn4Cap :: policy.capabilities
    else policy.capabilities
  let echoed := policy.peerCapabilities.filter fun cap =>
    !policy.capabilities.contains cap && !policy.rejectCapabilities.contains cap
  let capabilities := capabilities ++ echoed
  let params := if capabilities = [] then [] else [.capabilities capabilities]
  ⟨myAsn, policy.holdTimerDuration, policy.myBgpId, params⟩

def preHandleConnectionEventHook (policy : EchoCapabilitiesPolicy) :
    ConnectionEvent → EchoCapabilitiesPolicy
  | .bgpOpen message | .bgpOpenWithDelayOpenTimer message =>
      { policy with
        remoteAs := some message.myAsn4
        peerCapabilities := message.capabilities.filter fun cap => cap.asn4?.isNone }
  | _ => policy

end EchoCapabilitiesPolicy

/-! ## The state -/

inductive PeerAdminEvent where
  | manualStart
  | manualStop
  | automaticStart
  | automaticStop
  | tcpConnectionConfirmed
  deriving DecidableEq

inductive PeerState where
  | adminUp
  | adminDown
  deriving DecidableEq

/-- A step that waits: whether it is dialing, and whether it has lost sight of the
    tracked connection. -/
structure Selecting where
  dialing : Bool
  hidden : Bool
  deriving DecidableEq

structure Peer where
  properties : PeerProperties
  policy : EchoCapabilitiesPolicy
  peerState : PeerState
  fsmState : FsmState
  config : PeerConfig
  connection : Option Connection
  trackedConnection : Option Connection
  connectRetryTimer : Option Duration
  connectRetryCounter : ℕ
  allowedToActiveConnect : Bool
  waitingAdminEvents : List PeerAdminEvent
  /-- The waiting of `run`, if it has got there. -/
  selecting : Option Selecting

def PeerConfig.connectRetryPeriod (config : PeerConfig) : Duration :=
  if config.connectRetryDuration = 0 then 10 ^ 6 else .fromSecs config.connectRetryDuration.toNat

namespace Peer

def new (properties : PeerProperties) (config : PeerConfig) (policy : EchoCapabilitiesPolicy) :
    Peer where
  properties
  policy
  peerState := .adminDown
  fsmState := .idle
  config
  connection := none
  trackedConnection := none
  connectRetryTimer := none
  connectRetryCounter := 0
  allowedToActiveConnect := false
  waitingAdminEvents := []
  selecting := none

def fsmTransition (p : Peer) (newState : FsmState) : Peer :=
  { p with fsmState := newState }

def takeRetryTimer (p : Peer) : Peer :=
  { p with connectRetryTimer := none }

def startRetryTimer (p : Peer) : Peer :=
  { p with connectRetryTimer := some p.config.connectRetryPeriod }

def dropConnection (p : Peer) : Peer :=
  { p with connection := none }

def countRetry (p : Peer) : Peer :=
  { p with connectRetryCounter := p.connectRetryCounter + 1 }

/-- The end of a session that counts as a failure. -/
def failed (p : Peer) : Peer :=
  p.takeRetryTimer.countRetry.dropConnection.fsmTransition .idle

/-- The second connection is tracked. -/
def addConnection (p : Peer) (connection : Connection) : Peer :=
  if p.connection.isSome then { p with trackedConnection := some connection }
  else
    let after :=
      match connection.state with
      | .terminate => p.fsmState
      | .connected => p.fsmState
      | .openSent => .openSent
      | .openConfirm => .openConfirm
      | .established => .established
    { p.fsmTransition after with connection := some connection }

def start (p : Peer) : Peer :=
  let p := { p with peerState := .adminUp, connectRetryCounter := 0 }
  if p.fsmState ≠ .idle then p
  else if p.config.passiveTcpEstablishment then p.fsmTransition .active
  else { p.startRetryTimer.fsmTransition .connect with allowedToActiveConnect := true }

/-- `handle_connect_retry_tick`. -/
def handleConnectRetryTick (p : Peer) : Peer :=
  let p := if p.fsmState = .active then p.fsmTransition .connect else p
  { p.dropConnection with allowedToActiveConnect := p.fsmState = .connect }

/-! ## Events of the main connection -/

/-- What an event on the main connection makes of the peer, by the state of the
    connection before and after it. -/
def afterEvent (p : Peer) (conn : Connection) (before : ConnectionState)
    (event : ConnectionEvent) : Except FsmStateError Peer :=
  let invalid : Except FsmStateError Peer :=
    .error (.invalidConnectionStateTransition (.connection event) p.fsmState before conn.state)
  match before, conn.state with
  | .connected, .connected =>
      match event with
      | .tcpConnectionRequestAcked | .tcpConnectionConfirmed =>
          -- Only allowed to stay in this state if the open delay timer is running.
          if conn.openDelayTimer = none then invalid else .ok p.takeRetryTimer
      | .notifMsgErr => .ok p
      | _ => invalid
  | .connected, .openSent =>
      match event with
      | .tcpConnectionRequestAcked | .tcpConnectionConfirmed =>
          .ok (p.takeRetryTimer.fsmTransition .openSent)
      | .delayOpenTimerExpires => .ok (p.fsmTransition .openSent)
      | _ => invalid
  | .connected, .openConfirm =>
      match event with
      | .bgpOpen _ | .bgpOpenWithDelayOpenTimer _ =>
          .ok (p.takeRetryTimer.fsmTransition .openConfirm)
      | _ => invalid
  | .connected, .established => invalid
  | .connected, .terminate =>
      match event with
      | .tcpConnectionFails =>
          if p.fsmState = .connect ∧ conn.openDelayTimer.isSome then
            .ok (p.startRetryTimer.fsmTransition .active).dropConnection
          else
            let p := p.takeRetryTimer
            let p := if p.fsmState = .active then p.countRetry else p
            .ok (p.fsmTransition .idle).dropConnection
      | .bgpHeaderErr _ | .bgpOpenMsgErr _ => .ok p.failed
      | .notifMsgVerErr =>
          let p := p.takeRetryTimer
          let p := if conn.openDelayTimer = none then p.countRetry else p
          .ok (p.dropConnection.fsmTransition .idle)
      | .holdTimerExpires | .keepAliveTimerExpires | .bgpOpen _ | .notifMsg _ | .keepAliveMsg
      | .updateMsg _ _ | .updateMsgErr _ | .routeRefresh _ | .routeRefreshErr _ => .ok p.failed
      | _ => invalid
  | .openSent, .connected => invalid
  | .openSent, .openSent =>
      match event with
      | .notifMsgErr => .ok p
      | _ => invalid
  | .openSent, .openConfirm =>
      match event with
      | .bgpOpen _ => .ok (p.takeRetryTimer.fsmTransition .openConfirm)
      | _ => invalid
  | .openSent, .established => invalid
  | .openSent, .terminate =>
      let p := p.dropConnection
      match event with
      | .holdTimerExpires => .ok (p.takeRetryTimer.countRetry.fsmTransition .idle)
      | .tcpConnectionFails => .ok (p.startRetryTimer.fsmTransition .active)
      | .notifMsgVerErr => .ok (p.takeRetryTimer.fsmTransition .idle)
      | .bgpHeaderErr _ | .bgpOpenMsgErr _ | .keepAliveTimerExpires | .delayOpenTimerExpires
      | .bgpOpenWithDelayOpenTimer _ | .keepAliveMsg | .notifMsg _ | .updateMsg _ _
      | .updateMsgErr _ | .routeRefresh _ | .routeRefreshErr _ => .ok p.failed
      | _ => invalid
  | .openConfirm, .connected => invalid
  | .openConfirm, .openSent => invalid
  | .openConfirm, .openConfirm =>
      match event with
      | .keepAliveTimerExpires | .notifMsgErr => .ok p
      | _ => invalid
  | .openConfirm, .established =>
      match event with
      | .keepAliveMsg => .ok (p.fsmTransition .established)
      | _ => invalid
  | .openConfirm, .terminate =>
      match event with
      | .holdTimerExpires | .tcpConnectionFails | .bgpOpen _ | .bgpOpenMsgErr _ | .bgpHeaderErr _
      | .delayOpenTimerExpires | .bgpOpenWithDelayOpenTimer _ | .notifMsg _ | .updateMsg _ _
      | .updateMsgErr _ | .routeRefresh _ | .routeRefreshErr _ => .ok p.failed
      | .notifMsgVerErr => .ok (p.takeRetryTimer.dropConnection.fsmTransition .idle)
      | _ => invalid
  | .established, .connected => invalid
  | .established, .openSent => invalid
  | .established, .openConfirm => invalid
  | .established, .established =>
      match event with
      | .keepAliveTimerExpires | .keepAliveMsg | .updateMsg _ _ | .routeRefresh _ | .notifMsgErr =>
          .ok p
      | .notifMsg _ | .notifMsgVerErr => .ok p.failed
      | _ => invalid
  | .established, .terminate =>
      match event with
      | .holdTimerExpires | .delayOpenTimerExpires | .tcpConnectionFails | .bgpOpen _
      | .bgpOpenWithDelayOpenTimer _ | .bgpHeaderErr _ | .bgpOpenMsgErr _ | .updateMsgErr _
      | .routeRefreshErr _ | .notifMsg _ | .notifMsgVerErr => .ok p.failed
      | _ => invalid
  | .terminate, _ => invalid

/-! ## The code of the task -/

/-- What a step answers: an event to deliver, if it has come to one. -/
abbrev Step := EStateM Stop Peer

/-- The future of the step is dropped. -/
def cancelled {α : Type} : Step α :=
  throw .cancelled

/-- A handler on a connection of its own: what the connection has become, and what
    stopped the handler. -/
def runHandler {α : Type} (handler : Handler α) (c : Connection) : Connection × Option Stop :=
  match handler c with
  | .ok _ c => (c, none)
  | .error stop c => (c, some stop)

/-- `handle_connection_event`. -/
def handleConnectionEvent (out : Sending) (event : ConnectionEvent) : Step BgpEvent := do
  let p ← get
  match p.connection with
  | none =>
      if p.fsmState = .openSent then modify (·.fsmTransition .active)
      else modify (·.fsmTransition .idle)
      return .connection .tcpConnectionFails
  | some conn =>
      let policy := p.policy.preHandleConnectionEventHook event
      let (after, stop) := runHandler (handleEvent out policy.openMessage event) conn
      let p := { p with policy, connection := some after }
      set p
      match stop with
      | some stop => throw stop
      | none =>
          match p.afterEvent after conn.state event with
          | .ok p =>
              set p
              return .connection event
          | .error error => throw (.error error)

/-- A message to a connection that is about to be dropped; errors are ignored. -/
def farewell (out : Sending) (message : BgpMessage) : Step Unit :=
  match out message with
  | .cancelled _ => cancelled
  | _ => pure ()

def cease (error : CeaseError) : BgpMessage :=
  .notification (.ceaseError error)

/-- `fsm_state_from_tracked`. -/
def fsmStateFromTracked (fsmState : FsmState) (tracked : Connection) :
    Except FsmStateError FsmState :=
  match tracked.state with
  | .connected =>
      .error (.invalidConnectionStateTransition .openCollisionDump fsmState .connected .connected)
  | .terminate =>
      .error (.invalidConnectionStateTransition .openCollisionDump fsmState .terminate .terminate)
  | .openSent => .ok .openSent
  | .openConfirm => .ok .openConfirm
  | .established => .ok .established

def throwIf : Option Stop → Step Unit
  | some stop => throw stop
  | none => pure ()

/-- `accept_connection`; nothing comes of a connection that is rejected. -/
def acceptConnection (timing : Timing) (out : Sending) : Step (Option BgpEvent) := do
  let p ← get
  if p.peerState = .adminDown ∨ (p.connection.isSome ∧ p.trackedConnection.isSome) ∨
      (p.fsmState = .established ∧ !p.config.collisionDetectEstablishedState) then
    return none
  else
    modify takeRetryTimer
    let (connection, stop) :=
      runHandler (handleEvent out p.policy.openMessage .tcpConnectionConfirmed)
        (.new p.properties .passive p.config timing)
    throwIf stop
    modify (·.addConnection connection)
    return some (.connection .tcpConnectionConfirmed)

/-- `handle_active_connection`, with the stream or without one. -/
def handleActiveConnection (dialed : Option Timing) (out : Sending) : Step BgpEvent := do
  match dialed with
  | some timing =>
      let p ← get
      modify takeRetryTimer
      let (connection, stop) :=
        runHandler (handleEvent out p.policy.openMessage .tcpConnectionRequestAcked)
          (.new p.properties .active p.config timing)
      throwIf stop
      modify (·.addConnection connection)
      return .connection .tcpConnectionRequestAcked
  | none =>
      modify takeRetryTimer
      return .connection .tcpConnectionFails

/-- The main connection is told that the peer shuts down. -/
def ceaseMain (out : Sending) : Step Unit := do
  match (← get).connection with
  | some conn =>
      let (conn, stop) := runHandler (Handler.trySend out (cease (.administrativeShutdown []))) conn
      modify fun p => { p with connection := some conn }
      throwIf stop
  | none => pure ()

def ceaseTracked (out : Sending) : Step Unit := do
  match (← get).trackedConnection with
  | some conn =>
      let (conn, stop) := runHandler (Handler.trySend out (cease (.administrativeShutdown []))) conn
      modify fun p => { p with trackedConnection := some conn }
      throwIf stop
  | none => pure ()

def shutdown (out outTracked : Sending) : Step Unit := do
  modify fun p => { p.takeRetryTimer.fsmTransition .idle with peerState := .adminDown }
  ceaseMain out
  modify dropConnection
  ceaseTracked outTracked
  modify fun p => { p with trackedConnection := none }

/-- Start events are ignored in a started peer. -/
def runStart (event passive : BgpEvent) : Step (Option BgpEvent) := do
  let p ← get
  if p.fsmState ≠ .idle then return none
  else
    modify start
    if p.config.passiveTcpEstablishment then
      modify startRetryTimer
      return some passive
    else return some event

def runAdmin (timing : Timing) (out outTracked : Sending) :
    PeerAdminEvent → Step (Option BgpEvent)
  | .manualStart => runStart .manualStart .manualStartWithPassiveTcp
  | .manualStop => do
      shutdown out outTracked
      modify fun p => { p with connectRetryCounter := 0 }
      return some .manualStop
  | .automaticStart => runStart .automaticStart .automaticStartWithPassiveTcp
  | .automaticStop => do
      shutdown out outTracked
      modify countRetry
      return some .automaticStop
  | .tcpConnectionConfirmed => acceptConnection timing out

/-! ## Collisions -/

inductive CollisionCheckRet where
  | dropMain
  | dropTracked
  | invalidTrackedBgpId (peerId : Ipv4Addr)
  deriving DecidableEq

def checkConnectionCollision (myBgpId : Ipv4Addr) (connection tracked : Option Connection) :
    Option CollisionCheckRet := do
  let main ← connection
  let mainPeerBgpId ← main.peerBgpId
  let tracked ← tracked
  let trackedPeerBgpId ← tracked.peerBgpId
  if trackedPeerBgpId ≠ mainPeerBgpId then some (.invalidTrackedBgpId trackedPeerBgpId)
  else if myBgpId.toNat < mainPeerBgpId.toNat ∨
      (myBgpId = mainPeerBgpId ∧ tracked.stats.created < main.stats.created) then
    some .dropMain
  else some .dropTracked

/-- `handle_connect_event` where the main connection is dropped. -/
def dropMain (out : Sending) : Step BgpEvent := do
  let p ← get
  match p.trackedConnection with
  | some tracked =>
      modify fun p => { p.countRetry with trackedConnection := none }
      match fsmStateFromTracked p.fsmState tracked with
      | .error error => throw (.error error)
      | .ok newState =>
          modify (·.fsmTransition newState)
          if p.connection.isSome then
            modify dropConnection
            farewell out (cease (.connectionCollisionResolution []))
          modify fun p => { p with connection := some tracked }
          return .openCollisionDump
  | none => return .openCollisionDump

def dropTracked (out : Sending) : Step BgpEvent := do
  if (← get).trackedConnection.isSome then
    modify fun p => { p with trackedConnection := none }
    farewell out (cease (.connectionCollisionResolution []))
  return .openCollisionDump

/-- The tracked connection, unless the step has lost sight of it. -/
def visible (p : Peer) (s : Selecting) : Option Connection :=
  if s.hidden then none else p.trackedConnection

/-- What follows something on one of the connections: a collision is resolved, or else
    `goOn`. A tracked connection with another identifier is told so, and then it is
    out of sight. -/
def resolve (s : Selecting) (outCease : Sending) (goOn : Step (Option BgpEvent)) :
    Step (Option BgpEvent) := do
  let p ← get
  match checkConnectionCollision p.properties.myBgpId p.connection (p.visible s) with
  | some .dropMain => some <$> dropMain outCease
  | some .dropTracked => some <$> dropTracked outCease
  | some (.invalidTrackedBgpId peerId) =>
      if let some tracked := p.visible s then
        let (tracked, _) := runHandler
          (Handler.trySend outCease
            (.notification (.openMessageError (.badBgpIdentifier peerId.octets.toList)))) tracked
        modify fun p => { p with trackedConnection := some tracked }
      modify fun p => { p with selecting := some { s with hidden := true } }
      return none
  | none => goOn

/-- Something on the stream of the main connection. -/
def mainEvent (s : Selecting) (stimulus : Stimulus) (out outCease : Sending) :
    Step (Option BgpEvent) := do
  let p ← get
  match p.connection.bind (·.pollNext stimulus) with
  | some (conn, event) =>
      set { p with connection := some conn }
      resolve s outCease (some <$> handleConnectionEvent out event)
  | none => return none

/-- Something on the stream of the tracked connection, whose handler may fail. It is left
    alone while the peer connects, and once its OPEN has come. -/
def trackedEvent (s : Selecting) (stimulus : Stimulus) (out outCease : Sending) :
    Step (Option BgpEvent) := do
  let p ← get
  match (p.visible s).bind (·.pollNext stimulus) with
  | some (tracked, event) =>
      if p.fsmState = .connect ∨ tracked.state = .openConfirm then return none
      else
        let policy := p.policy.preHandleConnectionEventHook event
        let (tracked, stop) := runHandler (handleEvent out policy.openMessage event) tracked
        set { p with policy, trackedConnection := some tracked }
        if stop = some .cancelled then return none
        else resolve s outCease (return none)
  | none => return none

/-! ## Steps -/

/-- What the world can do. An input that nothing waits for changes nothing. -/
inductive Input where
  /-- An event for the peer; without an administrative event it only drops the step. -/
  | peerEvent (admin : Option PeerAdminEvent)
  /-- `run` begins with the administrative event that came last. -/
  | admin (timing : Timing) (out outTracked : Sending)
  /-- `run` begins, and no administrative event waits. -/
  | wait
  | dial
  | dialed (stream : Option Timing) (out : Sending)
  | connectRetryTick
  | main (stimulus : Stimulus) (out outCease : Sending)
  | tracked (stimulus : Stimulus) (out outCease : Sending)

/-- A step that comes to an event is over. -/
def finish : EStateM.Result Stop Peer (Option BgpEvent) →
    Except FsmStateError (Peer × Option BgpEvent)
  | .ok (some event) p => .ok ({ p with selecting := none }, some event)
  | .ok none p => .ok (p, none)
  | .error .cancelled p => .ok ({ p with selecting := none }, none)
  | .error (.error error) _ => .error error

/-- One step of the task of a peer. Its first error ends the task. -/
def step (p : Peer) (input : Input) : Except FsmStateError (Peer × Option BgpEvent) :=
  match input, p.selecting with
  | .peerEvent admin, _ =>
      .ok ({ p with
        waitingAdminEvents := p.waitingAdminEvents ++ admin.toList
        selecting := none }, none)
  | .admin timing out outTracked, none =>
      match p.waitingAdminEvents.getLast? with
      | some event =>
          let p := { p with
            waitingAdminEvents := p.waitingAdminEvents.dropLast
            selecting := some ⟨false, false⟩ }
          finish (runAdmin timing out outTracked event p)
      | none => .ok (p, none)
  | .wait, none =>
      if p.waitingAdminEvents = [] then
        .ok ({ p with selecting := some ⟨false, false⟩ }, none)
      else .ok (p, none)
  | .dial, some s =>
      if p.fsmState = .connect ∧ p.allowedToActiveConnect then
        .ok ({ p with
          allowedToActiveConnect := false
          selecting := some { s with dialing := true } }, none)
      else .ok (p, none)
  | .dialed stream out, some s =>
      if s.dialing then finish ((some <$> handleActiveConnection stream out : Step _) p)
      else .ok (p, none)
  | .connectRetryTick, some _ =>
      if p.connectRetryTimer.isSome then
        .ok ({ p.handleConnectRetryTick with selecting := none }, some .connectRetryTimerExpires)
      else .ok (p, none)
  | .main stimulus out outCease, some s => finish (mainEvent s stimulus out outCease p)
  | .tracked stimulus out outCease, some s => finish (trackedEvent s stimulus out outCease p)
  | _, _ => .ok (p, none)

/-- What the task delivers: the state of the machine after each event, up to the first
    error. -/
def deliveries (p : Peer) : List Input → List (Except FsmStateError (FsmState × BgpEvent))
  | [] => []
  | input :: rest =>
      match p.step input with
      | .error error => [.error error]
      | .ok (next, none) => next.deliveries rest
      | .ok (next, some event) => .ok (next.fsmState, event) :: next.deliveries rest

/-! ## A session -/

def exampleProperties : PeerProperties :=
  ⟨64512, 64513, .new 10 0 0 2, true⟩

def examplePolicy : EchoCapabilitiesPolicy :=
  .new 64512 true (.new 10 0 0 2) 240 [] []

def exampleTiming : Timing :=
  ⟨fun duration => duration / 3, id⟩

def allSent : Sending :=
  fun _ => .sent

def theirOpen : BgpOpenMessage :=
  ⟨64513, 240, .new 10 0 0 1, []⟩

/-- The peer is started and dials. -/
def exampleDial : List Input :=
  [.peerEvent (some .manualStart), .admin exampleTiming allSent allSent, .wait, .dial]

/-- The dial succeeds, and the peer waits for an OPEN. -/
def exampleOpenSent : List Input :=
  exampleDial ++ [.dialed (some exampleTiming) allSent, .wait]

/-- The session comes up. -/
def exampleSession : List Input :=
  exampleOpenSent ++ [.main (.message (.openMsg theirOpen) [] none) allSent allSent, .wait,
    .main (.message .keepAlive [] none) allSent allSent]

def exampleUpdate : BgpUpdateMessage :=
  ⟨[], [.origin, .asPath, .nextHop (.new 192 0 2 1)],
    [⟨some 1, ⟨⟨.new 198 51 100 0, 24, by decide⟩, by decide⟩⟩]⟩

def exampleRoute : List Input :=
  exampleSession ++ [.wait, .main (.message (.update exampleUpdate) [] none) allSent allSent]

end Peer

end Erez.Speaker
