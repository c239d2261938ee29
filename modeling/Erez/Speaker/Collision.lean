import Erez.Speaker.Delivery

/-! # Collisions

What becomes of two connections to one peer: which of them the two sides keep, how far
the second one gets while it is tracked, and which events of the main connection a
collision costs.
-/

namespace Erez.Speaker

open Daemon Lib

/-! ## Which connection is kept -/

/-- An UPDATE on its way to the main connection. -/
structure Reading where
  message : BgpUpdateMessage
  errors : List PathAttributeParsingError
  otherEor : Option Daemon.AddressType
  out : Sending
  outCease : Sending

def Reading.input (r : Reading) : Peer.Input :=
  .main (.message (.update r.message) r.errors r.otherEor) r.out r.outCease

def Reading.Valid (r : Reading) : Prop :=
  handleUpdateMessage r.otherEor r.message (updateTreatment r.errors) =
    some (.updateMsg r.message (updateTreatment r.errors))

/-- What the daemon would make of it. -/
def Reading.update? (r : Reading) : Option Update :=
  if updateTreatment r.errors = .normal then (Update.tryFrom r.message).toOption else none

namespace Peer

theorem checkConnectionCollision_eq (myBgpId : Ipv4Addr) {main tracked : Connection}
    {mainId trackedId : Ipv4Addr} (main_ : main.peerBgpId = some mainId)
    (tracked_ : tracked.peerBgpId = some trackedId) :
    checkConnectionCollision myBgpId (some main) (some tracked) =
      if trackedId ≠ mainId then some (.invalidTrackedBgpId trackedId)
      else if myBgpId.toNat < mainId.toNat ∨
          (myBgpId = mainId ∧ tracked.stats.created < main.stats.created) then
        some .dropMain
      else some .dropTracked := by
  simp only [checkConnectionCollision, main_, tracked_, Option.bind_eq_bind, Option.bind_some]

/-- Of two speakers with different identifiers the smaller one drops its main connection. -/
theorem checkConnectionCollision_of_ne {myBgpId peerBgpId : Ipv4Addr} (ne : myBgpId ≠ peerBgpId)
    {main tracked : Connection} (main_ : main.peerBgpId = some peerBgpId)
    (tracked_ : tracked.peerBgpId = some peerBgpId) :
    checkConnectionCollision myBgpId (some main) (some tracked) =
      if myBgpId.toNat < peerBgpId.toNat then some .dropMain else some .dropTracked := by
  rw [checkConnectionCollision_eq myBgpId main_ tracked_, if_neg (not_not.mpr rfl)]
  simp only [ne, false_and, or_false]

theorem Collides.verdict_eq {p : Peer} {main tracked : Connection} {verdict other : CollisionCheckRet}
    (collides : p.Collides main tracked verdict)
    (check : checkConnectionCollision p.properties.myBgpId p.connection p.trackedConnection =
      some other) : verdict = other := by
  rw [collides.main_, collides.tracked_, collides.check] at check
  exact Option.some.inj check

/-- A step that comes to look for a collision, with the two connections as it then finds
    them; a farewell is not dropped on its way. -/
inductive Sees (p : Peer) : Input → Connection → Connection → Prop
  | onMain {s : Selecting} {stimulus : Stimulus} {out outCease : Sending}
      {before main tracked : Connection} {event : ConnectionEvent} (busy : p.selecting = some s)
      (main_ : p.connection = some before) (polled : before.pollNext stimulus = some (main, event))
      (seen : p.visible s = some tracked) (lasts : outCease.Lasts) :
      Sees p (.main stimulus out outCease) main tracked
  | onTracked {s : Selecting} {stimulus : Stimulus} {out outCease : Sending}
      {before c main tracked : Connection} {event : ConnectionEvent} {stop : Option Stop}
      (busy : p.selecting = some s) (main_ : p.connection = some main)
      (seen : p.visible s = some before) (away : p.fsmState ≠ .connect)
      (polled : before.pollNext stimulus = some (c, event)) (early : c.state ≠ .openConfirm)
      (ran : runHandler
        (handleEvent out (p.policy.preHandleConnectionEventHook event).openMessage event) c =
          (tracked, stop))
      (goesOn : stop ≠ some .cancelled) (lasts : outCease.Lasts) :
      Sees p (.tracked stimulus out outCease) main tracked

/-- The peer with the two connections as the step finds them. -/
def facing (p : Peer) (policy : EchoCapabilitiesPolicy) (main tracked : Connection) : Peer :=
  { p with policy, connection := some main, trackedConnection := some tracked }

theorem Sees.resolves {p : Peer} {input : Input} {main tracked : Connection}
    {verdict : CollisionCheckRet} (sees : p.Sees input main tracked)
    (check : checkConnectionCollision p.properties.myBgpId (some main) (some tracked) =
      some verdict) :
    ∃ policy outCease result, outCease.Lasts ∧
      Ended ((p.facing policy main tracked).Resolves outCease) result ∧
      p.step input = finish result := by
  have shown {s : Selecting} {before : Connection} (seen : p.visible s = some before)
      (policy : EchoCapabilitiesPolicy) :
      (p.facing policy main tracked).visible s = some tracked := by
    rw [visible] at seen ⊢
    split at seen
    · cases seen
    · rename_i inSight
      exact if_neg inSight
  have met {s : Selecting} {before : Connection} (seen : p.visible s = some before)
      (policy : EchoCapabilitiesPolicy) (outCease : Sending) (goOn : Step (Option BgpEvent)) :
      Ended ((p.facing policy main tracked).Resolves outCease)
        ((resolve s outCease goOn).run (p.facing policy main tracked)) :=
    resolve_of_some _ outCease goOn (by rw [shown seen policy]; exact check)
  cases sees with
  | @onMain s stimulus out outCease _ _ _ event busy main_ polled seen lasts =>
      have same : { p with connection := some main } = p.facing p.policy main tracked := by
        rw [facing, ← visible_eq_some seen]
      refine ⟨p.policy, outCease, _, lasts,
        met seen p.policy outCease (some <$> handleConnectionEvent out event), ?_⟩
      rw [step_main out outCease busy main_ polled, same]
  | @onTracked s stimulus out outCease _ _ _ _ event stop busy main_ seen away polled early ran
      goesOn lasts =>
      let policy := p.policy.preHandleConnectionEventHook event
      have same : { p with policy, trackedConnection := some tracked } =
          p.facing policy main tracked := by
        rw [facing, ← main_]
      refine ⟨policy, outCease, _, lasts, met seen policy outCease (return none), ?_⟩
      rw [step_tracked busy seen away polled early ran goesOn, same]

/-- The two connections of a peer. -/
inductive Place where
  | main
  | tracked

def Place.other : Place → Place
  | main => tracked
  | tracked => main

/-- What a step leaves that keeps one of the two connections; that of the tracked one
    counts as a retry. -/
def Keeps (p : Peer) (main tracked : Connection) (q : Peer) : Place → Prop
  | .main =>
      q.connection = some main ∧ q.trackedConnection = none ∧ q.fsmState = p.fsmState ∧
        q.connectRetryCounter = p.connectRetryCounter
  | .tracked =>
      q.connection = some tracked ∧ q.trackedConnection = none ∧
        fsmStateFromTracked p.fsmState tracked = .ok q.fsmState ∧
        q.connectRetryCounter = p.connectRetryCounter + 1

section Keeps

variable {p : Peer} {input : Input} {main tracked : Connection}

theorem step_keeps_main (sees : p.Sees input main tracked)
    (check : checkConnectionCollision p.properties.myBgpId (some main) (some tracked) =
      some .dropTracked) :
    ∃ q, p.step input = .ok (q, some .openCollisionDump) ∧ p.Keeps main tracked q .main := by
  obtain ⟨policy, outCease, result, lasts, ended, stepped⟩ := sees.resolves check
  rcases result with ⟨answer, q⟩ | ⟨stop, q⟩
  · cases ended with
    | dismisses collides => exact ⟨_, stepped, rfl, rfl, rfl, rfl⟩
    | promotes collides => cases collides.verdict_eq check
    | mismatches collides => cases collides.verdict_eq check
  · cases ended with
    | dismissalStopped collides dropped => exact absurd lasts dropped
    | loses collides => cases collides.verdict_eq check
    | breaks collides => cases collides.verdict_eq check

/-- The tracked connection takes over if it can; where it cannot, both are lost. -/
theorem step_keeps_tracked (sees : p.Sees input main tracked)
    (check : checkConnectionCollision p.properties.myBgpId (some main) (some tracked) =
      some .dropMain) :
    match fsmStateFromTracked p.fsmState tracked with
    | .ok _ =>
        ∃ q, p.step input = .ok (q, some .openCollisionDump) ∧ p.Keeps main tracked q .tracked
    | .error error => p.step input = .error error := by
  obtain ⟨policy, outCease, result, lasts, ended, stepped⟩ := sees.resolves check
  rcases result with ⟨answer, q⟩ | ⟨stop, q⟩
  · cases ended with
    | promotes collides state =>
        cases collides.tracked_
        rw [show fsmStateFromTracked p.fsmState tracked = _ from state]
        exact ⟨_, stepped, rfl, rfl, state, rfl⟩
    | dismisses collides => cases collides.verdict_eq check
    | mismatches collides => cases collides.verdict_eq check
  · cases ended with
    | breaks collides state =>
        cases collides.tracked_
        rw [show fsmStateFromTracked p.fsmState tracked = _ from state]
        exact stepped
    | loses collides state dropped => exact absurd lasts dropped
    | dismissalStopped collides => cases collides.verdict_eq check

end Keeps

/-- A step that finds both connections to be with the speaker `peerId`. -/
structure FindsCollision (p : Peer) (input : Input) (main tracked : Connection)
    (peerId : Ipv4Addr) : Prop where
  sees : p.Sees input main tracked
  mainId : main.peerBgpId = some peerId
  trackedId : tracked.peerBgpId = some peerId

/-- The smaller speaker keeps the tracked connection and the other one the main connection. -/
theorem FindsCollision.keeps {p : Peer} {input : Input} {main tracked : Connection}
    {peerId : Ipv4Addr} (finds : p.FindsCollision input main tracked peerId)
    (ne : p.properties.myBgpId ≠ peerId)
    (opened : tracked.state = .openSent ∨ tracked.state = .openConfirm) :
    ∃ q, p.step input = .ok (q, some .openCollisionDump) ∧
      p.Keeps main tracked q
        (if p.properties.myBgpId.toNat < peerId.toNat then .tracked else .main) := by
  have check := checkConnectionCollision_of_ne ne finds.mainId finds.trackedId
  by_cases smaller : p.properties.myBgpId.toNat < peerId.toNat
  · rw [if_pos smaller] at check ⊢
    obtain ⟨after, state⟩ : ∃ after, fsmStateFromTracked p.fsmState tracked = .ok after := by
      rcases opened with at_ | at_ <;> simp [fsmStateFromTracked, at_]
    have kept := step_keeps_tracked finds.sees check
    rw [state] at kept
    exact kept
  · rw [if_neg smaller] at check ⊢
    exact step_keeps_main finds.sees check

/-- The two sides dial each other. Each has dialed, has been dialed, and has read the other's
    OPEN on the connection that came in. -/
def exampleCrossing (theirs : BgpOpenMessage) : List Input :=
  exampleOpenSent ++ [.peerEvent (some .tcpConnectionConfirmed),
    .admin exampleTiming allSent allSent, .wait,
    .tracked (.message (.openMsg theirs) [] none) allSent allSent, .peerEvent none, .wait]

def ourOpen : BgpOpenMessage :=
  ⟨64512, 240, .new 10 0 0 2, []⟩

/-- A collision ends the task exactly where the smaller speaker's tracked connection has not
    said its OPEN yet, or has already ended; then neither connection is kept. -/
theorem collision_ends_task_iff {p : Peer} {input : Input} {main tracked : Connection}
    {peerId : Ipv4Addr} (finds : p.FindsCollision input main tracked peerId)
    (ne : p.properties.myBgpId ≠ peerId) :
    (∃ error, p.step input = .error error) ↔
      p.properties.myBgpId.toNat < peerId.toNat ∧
        (tracked.state = .connected ∨ tracked.state = .terminate) := by
  have check := checkConnectionCollision_of_ne ne finds.mainId finds.trackedId
  by_cases smaller : p.properties.myBgpId.toNat < peerId.toNat
  · rw [if_pos smaller] at check
    have left := step_keeps_tracked finds.sees check
    cases state : fsmStateFromTracked p.fsmState tracked with
    | error error =>
        rw [state] at left
        have stuck := (fsmStateFromTracked_error state).1
        exact ⟨fun _ => ⟨smaller, stuck⟩, fun _ => ⟨error, left⟩⟩
    | ok after =>
        rw [state] at left
        obtain ⟨q, stepped, -⟩ := left
        constructor
        · rintro ⟨error, ended⟩
          rw [stepped] at ended
          cases ended
        · rintro ⟨-, at_ | at_⟩ <;>
          · rw [fsmStateFromTracked, at_] at state
            cases state
  · rw [if_neg smaller] at check
    obtain ⟨q, stepped, -⟩ := step_keeps_main finds.sees check
    constructor
    · rintro ⟨error, ended⟩
      rw [stepped] at ended
      cases ended
    · exact fun stuck => absurd stuck.1 smaller

/-- The session waits for its KEEPALIVE when the other side dials again. -/
def exampleSecondDial : List Input :=
  exampleOpenSent ++
    [.main (.message (.openMsg { theirOpen with bgpId := .new 10 0 0 9 }) [] none) allSent allSent,
      .peerEvent (some .tcpConnectionConfirmed), .admin exampleTiming allSent allSent, .wait]

def exampleStatic : PeerProperties :=
  { exampleProperties with allowDynamicAs := false }

/-- An OPEN with a wrong AS number there takes down the first connection too. -/
theorem exampleSecondDial_ends :
    ∃ (p : Peer) (tracked : Connection),
      exampleSecondDial.foldlM next (new exampleStatic .default examplePolicy) = .ok p ∧
      ((∃ error, p.step (.tracked (.message (.openMsg
          { theirOpen with myAs := 64999, bgpId := .new 10 0 0 9 }) [] none) allSent allSent) =
            .error error) ↔
        p.properties.myBgpId.toNat < (Ipv4Addr.new 10 0 0 9).toNat ∧
          (tracked.state = .connected ∨ tracked.state = .terminate)) ∧
      p.connection.map (·.state) = some .openConfirm ∧ tracked.state = .terminate :=
  ⟨_, _, rfl, collision_ends_task_iff ⟨.onTracked rfl rfl rfl nofun rfl nofun rfl nofun
    allSent_lasts, rfl, rfl⟩ (by decide), rfl, rfl⟩

/-! ## How far the second connection gets -/

/-- The tracked connection has not reached `Established`. -/
def Waits (p : Peer) : Prop :=
  ∀ c, p.trackedConnection = some c → c.state ≠ .established

variable {p q : Peer} {out : Sending} {due : Option PeerAdminEvent} {input : Input}
  {answer : Except Stop (Option BgpEvent)}

theorem Resolves.waits (resolves : p.Resolves out q answer) (waits : p.Waits) : q.Waits := by
  cases resolves with
  | promotes | loses | breaks | dismisses | dismissalStopped => rintro _ ⟨⟩
  | mismatches collides notified =>
      rintro _ ⟨⟩
      rw [notified.state]
      exact waits _ collides.tracked_

theorem Moves.waits (moves : p.Moves due input q answer) (waits : p.Waits) : q.Waits := by
  have handles {tracked c c' : Connection} {stimulus : Stimulus} {event : ConnectionEvent}
      {ours : BgpOpenMessage} {stop : Option Stop} (tracked_ : p.trackedConnection = some tracked)
      (early : c.state ≠ .openConfirm) (polled : tracked.pollNext stimulus = some (c, event))
      (handled : Handled ours c event c' stop) : c'.state ≠ .established := by
    refine handled.state_ne_established early ?_
    obtain ⟨_, _, _, rfl⟩ := Connection.pollNext_frame polled
    exact waits tracked tracked_
  cases moves with
  | rests | dials | stopInterrupted | addStopped | refused | invalid | handlingStopped =>
      exact waits
  | retries =>
      obtain ⟨_, _, -, same⟩ := p.handleConnectRetryTick_eq
      rw [same]
      exact waits
  | starts due_ start idle =>
      obtain ⟨_, _, -, same⟩ := started_eq idle
      rw [same]
      exact waits
  | stops => rintro _ ⟨⟩
  | stopInterruptedLate due_ stop tracked_ notified =>
      rintro _ ⟨⟩
      rw [notified.state]
      exact waits _ tracked_
  | @adds _ _ _ _ _ c arrives handled =>
      rcases addConnection_cases p.takeRetryTimer c with ⟨_, -, same⟩ | ⟨_, -, -, same⟩
      · rw [same]
        rintro _ ⟨⟩
        rcases handled.new_state arrives.isTcp rfl with at_ | at_ <;> simp [at_]
      · rw [same]
        exact waits
  | handles main_ polled handled after =>
      intro c tracked_
      rw [(afterEvent_followed after).frame.2.1] at tracked_
      exact waits c tracked_
  | resolves main_ polled resolved => exact resolved.waits waits
  | tracks tracked_ away early polled handled =>
      rintro _ ⟨⟩
      exact handles tracked_ early polled handled
  | tracksResolves tracked_ away early polled handled resolved =>
      refine resolved.waits ?_
      rintro _ ⟨⟩
      exact handles tracked_ early polled handled

theorem run_waits {properties : PeerProperties} {config : PeerConfig}
    {policy : EchoCapabilitiesPolicy} {inputs : List Input}
    (run : inputs.foldlM next (new properties config policy) = .ok p) : p.Waits := by
  refine foldlM_invariant Waits (fun p input q waits stepped => ?_) (by rintro _ ⟨⟩) run
  obtain ⟨_, _, _, _, q', answer, moves, rfl, -⟩ := next_moves stepped
  exact moves.waits waits

/-- Who takes over stands in `OpenSent` or `OpenConfirm`. -/
theorem Resolves.fsmState (resolves : p.Resolves out q (.ok (some .openCollisionDump)))
    (waits : p.Waits) :
    q.fsmState = p.fsmState ∨ q.fsmState = .openSent ∨ q.fsmState = .openConfirm := by
  cases resolves with
  | dismisses => exact .inl rfl
  | @promotes main tracked after collides state =>
      refine .inr ?_
      have early := waits _ collides.tracked_
      rw [fsmStateFromTracked] at state
      cases at_ : tracked.state <;> rw [at_] at state <;> cases state
      · exact .inl rfl
      · exact .inr rfl
      · exact absurd at_ early

/-- A tracked connection never gets to `Established`, and no collision takes the machine
    there. -/
theorem tracked_never_established (properties : PeerProperties) (config : PeerConfig)
    (policy : EchoCapabilitiesPolicy) {inputs : List Input}
    (run : inputs.foldlM next (new properties config policy) = .ok p) :
    p.Waits ∧ ∀ input q, p.step input = .ok (q, some .openCollisionDump) →
      q.fsmState = p.fsmState ∨ q.fsmState = .openSent ∨ q.fsmState = .openConfirm := by
  have waits := run_waits run
  refine ⟨waits, fun input q stepped => ?_⟩
  have moves := p.step_stepped input
  rw [stepped] at moves
  obtain ⟨_, _, _, _, q', answer, moves, rfl, ended⟩ := moves
  obtain rfl := ended.resolve_right (by rintro ⟨-, ⟨⟩⟩)
  cases moves with
  | starts due_ start idle admin_ => exact admin_.elim
  | stops due_ stop counter admin_ => exact admin_.elim
  | resolves main_ polled resolved => exact resolved.fsmState waits
  | tracksResolves tracked_ away early polled handled resolved =>
      refine resolved.fsmState ?_
      rintro _ ⟨⟩
      have before := waits _ tracked_
      obtain ⟨_, _, _, rfl⟩ := Connection.pollNext_frame polled
      exact handled.state_ne_established early before

theorem exampleSession_waits :
    ∃ p, exampleSession.foldlM next (new exampleProperties .default examplePolicy) = .ok p ∧
      p.Waits ∧ ∀ input q, p.step input = .ok (q, some .openCollisionDump) →
        q.fsmState = p.fsmState ∨ q.fsmState = .openSent ∨ q.fsmState = .openConfirm :=
  ⟨_, rfl, tracked_never_established exampleProperties .default examplePolicy
    (show exampleSession.foldlM next _ = .ok _ from rfl)⟩

/-! ## What a collision costs -/

/-- The session is up, and a second connection has come under another identifier. -/
structure Haunted (p : Peer) (main tracked : Connection) : Prop where
  main_ : p.connection = some main
  tracked_ : p.trackedConnection = some tracked
  up : main.state = .established
  fsm : p.fsmState = .established
  known : ∃ id id', main.peerBgpId = some id ∧ tracked.peerBgpId = some id' ∧ id' ≠ id
  idle : p.selecting = none
  quiet : p.waitingAdminEvents = []

theorem step_wait {main tracked : Connection} (haunted : p.Haunted main tracked) :
    p.step .wait = .ok ({ p with selecting := some ⟨false, false⟩ }, none) := by
  rw [step.eq_def, haunted.idle]
  exact if_pos haunted.quiet

theorem Notified.peerBgpId {c c' : Connection} (notified : Notified c c') :
    c'.peerBgpId = c.peerBgpId := by
  obtain ⟨notif, rfl | rfl⟩ := notified
  · rfl
  · rfl

/-- What a step reads while the second connection is in sight is lost. -/
theorem step_lost {main tracked : Connection} {r : Reading} (valid : r.Valid)
    (haunted : p.Haunted main tracked) :
    ∃ tracked' s, Notified tracked tracked' ∧ s.hidden = true ∧
      step { p with selecting := some ⟨false, false⟩ } r.input =
        .ok ({ p with
          connection := some main.countUpdate
          trackedConnection := some tracked'
          selecting := some s }, none) := by
  obtain ⟨id, id', main_, tracked_, ne⟩ := haunted.known
  have counted : main.countUpdate.peerBgpId = some id := main_
  have check : checkConnectionCollision p.properties.myBgpId (some main.countUpdate)
      p.trackedConnection = some (.invalidTrackedBgpId id') := by
    rw [haunted.tracked_, checkConnectionCollision_eq _ counted tracked_, if_pos ne]
  let waiting : Peer :=
    { p with connection := some main.countUpdate, selecting := some ⟨false, false⟩ }
  let goOn : Step (Option BgpEvent) :=
    some <$> handleConnectionEvent r.out (.updateMsg r.message (updateTreatment r.errors))
  have ended : Ended (waiting.Resolves r.outCease)
      ((resolve ⟨false, false⟩ r.outCease goOn).run waiting) :=
    resolve_of_some waiting r.outCease goOn check
  have stepped : step { p with selecting := some ⟨false, false⟩ } r.input =
      finish ((resolve ⟨false, false⟩ r.outCease goOn).run waiting) :=
    step_main r.out r.outCease rfl haunted.main_ (main.pollNext_update valid)
  rw [stepped]
  have mismatch {main' tracked' : Connection} {verdict : CollisionCheckRet}
      (collides : waiting.Collides main' tracked' verdict) : verdict = .invalidTrackedBgpId id' :=
    collides.verdict_eq check
  generalize (resolve ⟨false, false⟩ r.outCease goOn).run waiting = result at ended ⊢
  rcases result with ⟨event, q⟩ | ⟨stop, q⟩
  · cases ended with
    | promotes collides => cases mismatch collides
    | dismisses collides => cases mismatch collides
    | mismatches collides notified s =>
        obtain rfl := Option.some.inj (haunted.tracked_.symm.trans collides.tracked_)
        exact ⟨_, _, notified, rfl, rfl⟩
  · cases ended with
    | loses collides => cases mismatch collides
    | breaks collides => cases mismatch collides
    | dismissalStopped collides => cases mismatch collides

/-- The next one comes through. -/
theorem step_kept {main : Connection} {r : Reading} {s : Selecting} (valid : r.Valid)
    (main_ : p.connection = some main) (up : main.state = .established)
    (busy : p.selecting = some s) (hidden : s.hidden = true) :
    p.step r.input =
      .ok ({ p with connection := some main.countUpdate, selecting := none },
        some (.connection (.updateMsg r.message (updateTreatment r.errors)))) := by
  refine step_of_read r.out r.outCease busy main_ up valid ?_
  rw [visible, if_pos hidden]
  exact checkConnectionCollision_none _ main

theorem results_cons {event : Option BgpEvent} (inputs : List Input)
    (stepped : p.step input = .ok (q, event)) :
    p.results (input :: inputs) =
      (event.map fun event => .ok (q.fsmState, event.toDaemon)).toList ++ q.results inputs := by
  rw [results, deliveries, stepped]
  cases event <;> rfl

/-- While a second connection with another identifier is there, the first UPDATE that each
    call of the task reads is lost, and only the next one comes through. -/
theorem every_other_update_lost {main tracked : Connection} (haunted : p.Haunted main tracked)
    (pairs : List (Reading × Reading)) (valid : ∀ pair ∈ pairs, pair.1.Valid ∧ pair.2.Valid) :
    processBgpUpdates
        (p.results (pairs.flatMap fun pair => [.wait, pair.1.input, pair.2.input])) =
      pairs.filterMap fun pair => pair.2.update? := by
  induction pairs generalizing p main tracked with
  | nil => rfl
  | cons pair pairs ih =>
      obtain ⟨lost, kept⟩ := pair
      obtain ⟨validLost, validKept⟩ := valid _ List.mem_cons_self
      obtain ⟨tracked', s, notified, hidden, missed⟩ := step_lost validLost haunted
      have established : main.countUpdate.state = .established := haunted.up
      let seen : Peer := { p with
        connection := some main.countUpdate
        trackedConnection := some tracked'
        selecting := some s }
      have through := step_kept (p := seen) validKept rfl established rfl hidden
      let next : Peer :=
        { seen with connection := some main.countUpdate.countUpdate, selecting := none }
      have haunted' : next.Haunted main.countUpdate.countUpdate tracked' := by
        obtain ⟨id, id', main_, tracked_, ne⟩ := haunted.known
        refine ⟨rfl, rfl, established, haunted.fsm, ⟨id, id', main_, ?_, ne⟩, rfl, haunted.quiet⟩
        rw [Notified.peerBgpId notified, tracked_]
      have later := ih haunted' fun other member => valid other (List.mem_cons_of_mem _ member)
      have sent : FsmResult.update?
          (.ok (p.fsmState, .updateMsg kept.message (updateTreatment kept.errors))) =
            kept.update? := by
        rw [haunted.fsm]
        rfl
      rw [List.flatMap_cons, List.cons_append, List.cons_append, List.cons_append,
        List.nil_append, results_cons _ (step_wait haunted), results_cons _ missed,
        results_cons _ through]
      change processBgpUpdates (.ok (p.fsmState, _) :: next.results _) = _
      rw [processBgpUpdates, later, List.filterMap_cons]
      change (FsmResult.update?
        (.ok (p.fsmState, .updateMsg kept.message (updateTreatment kept.errors)))).toList ++ _ = _
      rw [sent]
      cases kept.update? <;> rfl

def exampleWatchful : PeerConfig :=
  { PeerConfig.default with collisionDetectEstablishedState := true }

/-- The session is up, and the other side dials again under another identifier. -/
def exampleImpostor : List Input :=
  exampleSession ++ [.peerEvent (some .tcpConnectionConfirmed),
    .admin exampleTiming allSent allSent, .wait,
    .tracked (.message (.openMsg { theirOpen with bgpId := .new 10 0 0 9 }) [] none)
      allSent allSent, .peerEvent none]

def exampleReading : Reading :=
  ⟨exampleUpdate, [], none, allSent, allSent⟩

theorem exampleImpostor_loses :
    ∃ p, exampleImpostor.foldlM next (new exampleProperties exampleWatchful examplePolicy) = .ok p ∧
      processBgpUpdates (p.results [.wait, exampleReading.input, exampleReading.input]) =
        [(exampleReading, exampleReading)].filterMap fun pair => pair.2.update? := by
  have valid : exampleReading.Valid := rfl
  refine ⟨_, rfl, every_other_update_lost
    ⟨rfl, rfl, rfl, rfl, ⟨_, _, rfl, rfl, by decide⟩, rfl, rfl⟩
    [(exampleReading, exampleReading)] ?_⟩
  intro pair member
  obtain rfl := List.mem_singleton.mp member
  exact ⟨valid, valid⟩

/-! ## A collision that ends both connections -/

/-- The peer's OPEN on the main connection tells that the two connections collide, and the
    tracked one is to go. -/
structure Meets (p : Peer) (main tracked : Connection) (theirs : BgpOpenMessage) : Prop where
  main_ : p.connection = some main
  tracked_ : p.trackedConnection = some tracked
  sent : main.state = .openSent
  known : tracked.peerBgpId = some theirs.bgpId
  smaller : theirs.bgpId.toNat < p.properties.myBgpId.toNat
  busy : p.selecting = some ⟨false, false⟩
  quiet : p.waitingAdminEvents = []

theorem handleOpenMessage_fst (theirs : BgpOpenMessage) (peerAsn : Option UInt32)
    (delayTimerRunning : Bool) :
    (Connection.handleOpenMessage theirs peerAsn delayTimerRunning).1 = theirs.bgpId := by
  cases peerAsn with
  | none => rfl
  | some n =>
      rw [Connection.handleOpenMessage]
      split <;> rfl

/-- The OPEN is dropped with the tracked connection. -/
theorem next_open_dropped {main tracked : Connection} {theirs : BgpOpenMessage}
    (meets : p.Meets main tracked theirs) (errors : List PathAttributeParsingError)
    (otherEor : Option Daemon.AddressType) (out outCease : Sending) :
    ∃ c, c.state = .openSent ∧
      p.next (.main (.message (.openMsg theirs) errors otherEor) out outCease) =
        .ok { p with connection := some c, trackedConnection := none, selecting := none } := by
  obtain ⟨c, event, polled, sent, id_⟩ : ∃ c event,
      main.pollNext (.message (.openMsg theirs) errors otherEor) = some (c, event) ∧
        c.state = .openSent ∧ c.peerBgpId = some theirs.bgpId :=
    ⟨_, _, main.receive_openMsg theirs errors otherEor, meets.sent,
      congrArg some (handleOpenMessage_fst theirs main.peerAsn _)⟩
  refine ⟨c, sent, ?_⟩
  have check : checkConnectionCollision p.properties.myBgpId (some c) p.trackedConnection =
      some .dropTracked := by
    rw [meets.tracked_, checkConnectionCollision_of_ne (fun same => ?_) id_ meets.known,
      if_neg meets.smaller.asymm]
    exact absurd meets.smaller (by rw [same]; exact lt_irrefl _)
  let waiting : Peer := { p with connection := some c }
  let goOn : Step (Option BgpEvent) := some <$> handleConnectionEvent out event
  have ended : Ended (waiting.Resolves outCease)
      ((resolve ⟨false, false⟩ outCease goOn).run waiting) :=
    resolve_of_some waiting outCease goOn check
  have verdict {main' tracked' : Connection} {verdict : CollisionCheckRet}
      (collides : waiting.Collides main' tracked' verdict) : verdict = .dropTracked :=
    collides.verdict_eq check
  rw [next, step_main out outCease meets.busy meets.main_ polled]
  change (finish ((resolve ⟨false, false⟩ outCease goOn).run waiting)).map Prod.fst = _
  generalize (resolve ⟨false, false⟩ outCease goOn).run waiting = result at ended ⊢
  rcases result with ⟨answer, q⟩ | ⟨stop, q⟩
  · cases ended with
    | promotes collides => cases verdict collides
    | dismisses collides => rfl
    | mismatches collides notified s => cases verdict collides
  · cases ended with
    | loses collides => cases verdict collides
    | breaks collides => cases verdict collides
    | dismissalStopped collides => rfl

/-- A KEEPALIVE in `OpenSent` ends the connection. -/
theorem next_keepAlive_ends {c : Connection} {s : Selecting} (busy : p.selecting = some s)
    (main_ : p.connection = some c) (sent : c.state = .openSent)
    (alone : p.trackedConnection = none) (errors : List PathAttributeParsingError)
    (otherEor : Option Daemon.AddressType) {out : Sending} (outCease : Sending)
    (lasts : out.Lasts) :
    ∃ q, p.next (.main (.message .keepAlive errors otherEor) out outCease) = .ok q ∧
      q.connection = none ∧ q.trackedConnection = none ∧ q.fsmState = .idle := by
  obtain ⟨d, polled, at_⟩ : ∃ d,
      c.pollNext (.message .keepAlive errors otherEor) = some (d, .keepAliveMsg) ∧
        d.state = .openSent := ⟨_, rfl, sent⟩
  have unseen := checkConnectionCollision_alone alone d s
  obtain ⟨d', notified⟩ | ⟨_, -, dropped, -⟩ := Handler.trySend_cases out unexpectedInOpenSent d
  · have ran : runHandler (handleEvent out p.policy.openMessage .keepAliveMsg) d =
        (d'.inState .terminate, none) := by
      simp only [runHandler, handleEvent, handleOpenSentEvent, Handler.bind_apply,
        Handler.get_apply, at_, notified.1, Handler.setState_apply, Handler.pure_apply]
    have after : afterEvent { p with connection := some (d'.inState .terminate) }
        (d'.inState .terminate) d.state .keepAliveMsg =
          .ok { p with connection := some (d'.inState .terminate) }.dropConnection.failed := by
      rw [afterEvent.eq_def, at_]
      rfl
    refine ⟨{ p.dropConnection.failed with selecting := none }, ?_, rfl, alone, rfl⟩
    rw [next, step_main_handles busy main_ polled unseen ran after]
    rfl
  · exact absurd lasts dropped

/-- When the peer's OPEN on the main connection is what shows a collision, and the tracked
    connection is dropped, the main one has lost that OPEN: the peer's KEEPALIVE then ends
    it too. -/
theorem collision_ends_both {main tracked : Connection} {theirs : BgpOpenMessage}
    (meets : p.Meets main tracked theirs) (errors errors' : List PathAttributeParsingError)
    (otherEor otherEor' : Option Daemon.AddressType) (out outCease out' outCease' : Sending)
    (lasts : out'.Lasts) :
    ∃ q, [Input.main (.message (.openMsg theirs) errors otherEor) out outCease, .wait,
        .main (.message .keepAlive errors' otherEor') out' outCease'].foldlM next p = .ok q ∧
      q.connection = none ∧ q.trackedConnection = none ∧ q.fsmState = .idle := by
  obtain ⟨c, sent, dropped⟩ := next_open_dropped meets errors otherEor out outCease
  let alone : Peer := { p with connection := some c, trackedConnection := none, selecting := none }
  have waited : alone.next .wait = .ok { alone with selecting := some ⟨false, false⟩ } := by
    rw [next, step.eq_def]
    change Except.map Prod.fst (if p.waitingAdminEvents = [] then _ else _) = _
    rw [if_pos meets.quiet]
    rfl
  obtain ⟨q, ended, gone⟩ := next_keepAlive_ends (p := { alone with selecting := some ⟨false, false⟩ })
    rfl rfl sent rfl errors' otherEor' outCease' lasts
  refine ⟨q, ?_, gone⟩
  exact foldlM_cons_ok.mpr ⟨_, dropped, foldlM_cons_ok.mpr ⟨_, waited,
    foldlM_cons_ok.mpr ⟨_, ended, rfl⟩⟩⟩

/-- While the peer waits for the OPEN, the other side dials too, and says its OPEN there. -/
def exampleSecond : List Input :=
  exampleCrossing theirOpen

theorem exampleSecond_ends :
    ∃ p q, exampleSecond.foldlM next (new exampleProperties .default examplePolicy) = .ok p ∧
      [Input.main (.message (.openMsg theirOpen) [] none) allSent allSent, .wait,
        .main (.message .keepAlive [] none) allSent allSent].foldlM next p = .ok q ∧
      q.connection = none ∧ q.trackedConnection = none ∧ q.fsmState = .idle := by
  exact ⟨_, _, rfl, (collision_ends_both ⟨rfl, rfl, rfl, rfl, by decide, rfl, rfl⟩ [] [] none none
    allSent allSent allSent allSent allSent_lasts).choose_spec⟩

end Peer

end Erez.Speaker
