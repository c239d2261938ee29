import Erez.Daemon.Sessions
import Erez.Speaker.Following

/-! # What reaches the daemon

The daemon takes its routes from the UPDATEs that the tasks of its peers deliver. What
is delivered in `Established` was read on a connection with a complete handshake; in
an undisturbed run, the daemon gets just what such a connection reads while no second
connection is in sight.
-/

namespace Erez.Speaker

open Daemon Lib LastWriter

def FsmStateError.toDaemon : FsmStateError → Daemon.FsmStateError
  | bgpMessageWritingError => .bgpMessageWritingError
  | invalidConnectionStateTransition .. => .invalidConnectionStateTransition

theorem handleUpdateMessage_updateMsg {otherEor : Option Daemon.AddressType}
    {update message : BgpUpdateMessage} {treatment t : UpdateTreatment}
    (h : handleUpdateMessage otherEor update treatment = some (.updateMsg message t)) :
    message = update ∧ t = treatment := by
  rw [handleUpdateMessage] at h
  split_ifs at h <;> cases h
  exact ⟨rfl, rfl⟩

/-- Only an UPDATE that was read is reported as one. -/
theorem Connection.pollNext_updateMsg {c c' : Connection} {stimulus : Stimulus}
    {message : BgpUpdateMessage} {treatment : UpdateTreatment}
    (polled : c.pollNext stimulus = some (c', .updateMsg message treatment)) :
    ∃ errors otherEor, stimulus = .message (.update message) errors otherEor ∧
      treatment = updateTreatment errors ∧
      handleUpdateMessage otherEor message treatment = some (.updateMsg message treatment) := by
  cases stimulus with
  | keepaliveTick | openDelayTick | holdTick =>
      simp only [pollNext] at polled
      split at polled <;> cases polled
  | message read errors otherEor =>
      cases read with
      | update update =>
          obtain ⟨event, handled, same⟩ := Option.map_eq_some_iff.mp polled
          rcases event with ⟨m, t⟩ | _ | _ <;> cases same
          obtain ⟨rfl, rfl⟩ := handleUpdateMessage_updateMsg handled
          exact ⟨errors, otherEor, rfl, rfl, handled⟩
      | openMsg theirs =>
          rw [pollNext, receive_openMsg] at polled
          have reported := (Prod.mk.inj (Option.some.inj polled)).2
          rcases handleOpenMessage_cases theirs c.peerAsn c.openDelayTimer.isSome with
            ⟨error, refused⟩ | ⟨-, accepted⟩
          · rw [refused] at reported
            cases reported
          · rw [accepted] at reported
            split at reported <;> cases reported
      | notification notif =>
          simp only [pollNext, receive] at polled
          split at polled <;> cases polled
      | keepAlive | routeRefresh => cases polled
  | undecodable error =>
      have reported := (Prod.mk.inj (Option.some.inj polled)).2
      rcases error with _ | _ | error
      · cases reported
      · cases reported
      · cases error <;> cases reported
  | ended => cases polled

def Connection.countUpdate (c : Connection) : Connection :=
  { c with
    stats := { c.stats with
      messagesReceived := c.stats.messagesReceived + 1
      updateReceived := c.stats.updateReceived + 1 } }

theorem Connection.pollNext_update (c : Connection) {message : BgpUpdateMessage}
    {errors : List PathAttributeParsingError} {otherEor : Option Daemon.AddressType}
    (valid : handleUpdateMessage otherEor message (updateTreatment errors) =
      some (.updateMsg message (updateTreatment errors))) :
    c.pollNext (.message (.update message) errors otherEor) =
      some (c.countUpdate, .updateMsg message (updateTreatment errors)) := by
  rw [pollNext, receive, valid]
  rfl

namespace Peer

variable {p q : Peer} {input : Input} {message : BgpUpdateMessage} {treatment : UpdateTreatment}

/-- What the daemon sees of a run. -/
def results (p : Peer) (inputs : List Input) : List FsmResult :=
  (p.deliveries inputs).map fun
    | .ok (fsmState, event) => .ok (fsmState, event.toDaemon)
    | .error error => .error error.toDaemon

/-- An UPDATE that comes to the main connection. -/
inductive Reads (p : Peer) (message : BgpUpdateMessage) (errors : List PathAttributeParsingError) :
    Input → Prop
  | read {main : Connection} (main_ : p.connection = some main) (up : main.state = .established)
      (otherEor : Option Daemon.AddressType) (out outCease : Sending)
      (valid : handleUpdateMessage otherEor message (updateTreatment errors) =
        some (.updateMsg message (updateTreatment errors))) :
      Reads p message errors (.main (.message (.update message) errors otherEor) out outCease)

/-- What is delivered as an UPDATE of the established session was read on it. -/
theorem step_updateMsg
    (h : p.step input = .ok (q, some (.connection (.updateMsg message treatment))))
    (up : q.fsmState = .established) :
    ∃ errors, treatment = updateTreatment errors ∧ p.Reads message errors input := by
  have moves := p.step_stepped input
  rw [h] at moves
  obtain ⟨_, _, _, _, q', answer, moves, rfl, ended⟩ := moves
  obtain rfl := ended.resolve_right (by rintro ⟨-, ⟨⟩⟩)
  cases moves with
  | starts due_ start idle admin_ => exact admin_.elim
  | stops due_ stop counter admin_ => exact admin_.elim
  | adds arrives =>
      rcases arrives.isTcp with h | h <;> cases h
  | @handles _ _ _ main c c' _ _ main_ polled handled after =>
      obtain ⟨errors, otherEor, rfl, rfl, valid⟩ := Connection.pollNext_updateMsg polled
      have established : c.state = .established := by
        cases handled with
        | quiet h =>
            cases at_ : c.state with
            | established => rfl
            | terminate =>
                rw [afterEvent.eq_def, at_] at after
                cases after
            | _ =>
                rw [at_] at h
                cases h
        | waits at_ tcp => rcases tcp with h | h <;> cases h
        | opens at_ h => rcases h with h | ⟨h | h, -⟩ <;> cases h
        | ends fatal notified =>
            -- The session is over, and the machine is not in `Established`.
            cases afterEvent_followed after with
            | stays same =>
                rw [← same] at fatal
                cases fatal
            | advances reached => cases reached
            | ends down => rcases down with rfl | rfl <;> cases up
      obtain ⟨_, _, _, rfl⟩ := Connection.pollNext_frame polled
      have here : p.connection = some main := main_
      exact ⟨errors, rfl, .read here established otherEor _ _ valid⟩
  | resolves main_ polled resolved => cases resolved
  | tracksResolves tracked_ away early polled handled resolved => cases resolved

theorem mem_deliveries {inputs : List Input} {fsmState : FsmState} {event : BgpEvent}
    (h : .ok (fsmState, event) ∈ p.deliveries inputs) :
    ∃ before input after q q', inputs = before ++ input :: after ∧
      before.foldlM next p = .ok q ∧ q.step input = .ok (q', some event) ∧
      q'.fsmState = fsmState := by
  induction inputs generalizing p with
  | nil => cases h
  | cons input rest ih =>
      rw [deliveries] at h
      cases stepped : p.step input with
      | error error => simp [stepped] at h
      | ok result =>
          obtain ⟨q, delivered⟩ := result
          have later (h : .ok (fsmState, event) ∈ q.deliveries rest) :
              ∃ before input' after r r', input :: rest = before ++ input' :: after ∧
                before.foldlM next p = .ok r ∧ r.step input' = .ok (r', some event) ∧
                r'.fsmState = fsmState := by
            obtain ⟨before, input', after, r, r', rfl, ran, stepped', same⟩ := ih h
            refine ⟨input :: before, input', after, r, r', rfl, ?_, stepped', same⟩
            exact foldlM_cons_ok.mpr ⟨q, by rw [next, stepped]; rfl, ran⟩
          cases delivered with
          | none =>
              rw [stepped] at h
              exact later h
          | some first =>
              rw [stepped] at h
              rcases List.mem_cons.mp h with here | there
              · cases here
                exact ⟨[], input, rest, p, q, rfl, rfl, stepped, rfl⟩
              · exact later there

theorem update?_eq_some {result : FsmResult} {update : Update} (h : result.update? = some update) :
    ∃ message, result = .ok (.established, .updateMsg message .normal) ∧
      Update.tryFrom message = .ok update := by
  rw [FsmResult.update?.eq_def] at h
  split at h
  · rename_i message treatment
    split at h
    · rename_i normal
      refine ⟨message, by rw [normal], ?_⟩
      cases sent : Update.tryFrom message with
      | error error =>
          rw [sent] at h
          cases h
      | ok update' =>
          rw [sent] at h
          cases h
          rfl
    · cases h
  · cases h

theorem mem_processBgpUpdates {results : List FsmResult} {update : Update}
    (h : update ∈ processBgpUpdates results) :
    ∃ message, .ok (.established, .updateMsg message .normal) ∈ results ∧
      Update.tryFrom message = .ok update := by
  induction results with
  | nil => cases h
  | cons result rest ih =>
      cases result with
      | error error => cases h
      | ok result =>
          rw [processBgpUpdates] at h
          rcases List.mem_append.mp h with here | there
          · obtain ⟨message, same, sent⟩ := update?_eq_some (Option.mem_toList.mp here)
            cases same
            exact ⟨message, List.mem_cons_self, sent⟩
          · obtain ⟨message, member, same⟩ := ih there
            exact ⟨message, List.mem_cons_of_mem _ member, same⟩

theorem mem_results {inputs : List Input}
    (h : .ok (.established, .updateMsg message treatment) ∈ p.results inputs) :
    .ok (.established, .connection (.updateMsg message treatment)) ∈ p.deliveries inputs := by
  obtain ⟨delivered, member, same⟩ := List.mem_map.mp h
  cases delivered with
  | error error => cases same
  | ok delivered =>
      obtain ⟨fsmState, event⟩ := delivered
      cases event with
      | connection event =>
          cases event <;> cases same
          exact member
      | _ => cases same

/-- A session that is up: the main connection, with a complete handshake behind it. -/
structure Up (p : Peer) (main : Connection) : Prop where
  main_ : p.connection = some main
  established : main.state = .established
  confirmed : main.Confirmed
  kept : 0 < main.stats.keepaliveReceived

/-- Every route in the table was announced in an UPDATE that the main connection of the
    peer has read with a complete handshake behind it, and none of whose errors calls for
    another treatment. -/
theorem routes_come_from_sessions (properties : PeerProperties) (config : PeerConfig)
    (policy : EchoCapabilitiesPolicy) (inputs : List Input) :
    ∃ c, drained ((new properties config policy).results inputs) = .ok c ∧
      ∀ route nexthop, c.rib.nexthop? route = some nexthop →
        ∃ before input after p main message errors update,
          inputs = before ++ input :: after ∧
            before.foldlM next (new properties config policy) = .ok p ∧ p.Up main ∧
            p.Reads message errors input ∧ (∀ error ∈ errors, error.treatment? = none) ∧
            Update.tryFrom message = .ok update ∧ .put route nexthop ∈ update.ops := by
  obtain ⟨c, ran, table⟩ := nexthop?_drained ((new properties config policy).results inputs)
  refine ⟨c, ran, fun route nexthop held => ?_⟩
  rw [table] at held
  have put := put_mem_of_final held
  obtain ⟨update, sent, op⟩ := List.mem_flatMap.mp put
  obtain ⟨message, member, same⟩ := mem_processBgpUpdates sent
  obtain ⟨before, input, after, p, q, split, run, stepped, up⟩ :=
    mem_deliveries (mem_results member)
  obtain ⟨errors, normal, reads⟩ := step_updateMsg stepped up
  obtain ⟨main, main_, established⟩ :
      ∃ main, p.connection = some main ∧ main.state = .established := by
    obtain ⟨main_, up⟩ := reads
    exact ⟨_, main_, up⟩
  have sound := ((run_sound run).1 main main_).1
  exact ⟨before, input, after, p, main, message, errors, update, split, run,
    ⟨main_, established, sound.confirmed (.inr established), sound.established established⟩, reads,
    updateTreatment_eq_normal normal.symm, same, op⟩

/-! ## What a session hands over -/

/-- What the established main connection reads is for the daemon, if it is a valid UPDATE and
    no second connection with a known identifier is in sight. -/
def accepts? (p : Peer) : Input → Option Update
  | .main (.message (.update message) errors otherEor) _ _ =>
      match p.connection, p.selecting with
      | some main, some s =>
          if main.state = .established ∧ updateTreatment errors = .normal ∧
              handleUpdateMessage otherEor message .normal = some (.updateMsg message .normal) ∧
              checkConnectionCollision p.properties.myBgpId (some main) (p.visible s) = none then
            (Update.tryFrom message).toOption
          else none
      | _, _ => none
  | _ => none

/-- The update that a step makes the daemon send on. -/
def sends? (p : Peer) (input : Input) : Option Update :=
  match p.step input with
  | .ok (q, some event) => FsmResult.update? (.ok (q.fsmState, event.toDaemon))
  | _ => none

theorem sends?_of_not_reads (h : ∀ message errors, ¬ p.Reads message errors input) :
    p.sends? input = none := by
  rw [sends?]
  split
  · rename_i q event stepped
    refine Option.eq_none_iff_forall_ne_some.mpr fun update sent => ?_
    obtain ⟨message, same, -⟩ := update?_eq_some sent
    obtain ⟨up, same⟩ := Prod.mk.inj (Except.ok.inj same)
    cases event with
    | connection event =>
        cases event <;> cases same
        obtain ⟨errors, -, reads⟩ := step_updateMsg stepped up
        exact h _ _ reads
    | _ => cases same
  · rfl

/-- A collision answers with an event of its own, if at all. -/
theorem Resolves.silent {out : Sending} {answer : Except Stop (Option BgpEvent)}
    (resolves : p.Resolves out q answer) :
    answer = .ok none ∨ answer = .ok (some .openCollisionDump) ∨ ∃ stop, answer = .error stop := by
  cases resolves with
  | promotes | dismisses => exact .inr (.inl rfl)
  | loses | breaks | dismissalStopped => exact .inr (.inr ⟨_, rfl⟩)
  | mismatches => exact .inl rfl

theorem sends?_of_collision {s : Selecting} {main c : Connection} {stimulus : Stimulus}
    {event : ConnectionEvent} {verdict : CollisionCheckRet} (out outCease : Sending)
    (busy : p.selecting = some s) (main_ : p.connection = some main)
    (polled : main.pollNext stimulus = some (c, event))
    (check : checkConnectionCollision p.properties.myBgpId (some c) (p.visible s) = some verdict) :
    p.sends? (.main stimulus out outCease) = none := by
  rw [sends?, step_main out outCease busy main_ polled]
  have ended := resolve_of_some { p with connection := some c } outCease
    (some <$> handleConnectionEvent out event) check
  rcases ran : (resolve s outCease (some <$> handleConnectionEvent out event)).run
    { p with connection := some c } with ⟨event, q⟩ | ⟨stop, q⟩
  · rw [ran] at ended
    rcases ended.silent with ⟨⟨⟩⟩ | ⟨⟨⟩⟩ | ⟨_, ⟨⟩⟩
    · rfl
    · cases fsm : q.fsmState <;> simp [finish, BgpEvent.toDaemon, FsmResult.update?]
  · cases stop <;> rfl

/-- An UPDATE that the established connection reads is passed on as it is. -/
theorem step_of_read {s : Selecting} {main : Connection}
    {errors : List PathAttributeParsingError} {otherEor : Option Daemon.AddressType}
    (out outCease : Sending) (busy : p.selecting = some s) (main_ : p.connection = some main)
    (up : main.state = .established)
    (valid : handleUpdateMessage otherEor message (updateTreatment errors) =
      some (.updateMsg message (updateTreatment errors)))
    (alone : checkConnectionCollision p.properties.myBgpId (some main) (p.visible s) = none) :
    p.step (.main (.message (.update message) errors otherEor) out outCease) =
      .ok ({ p with connection := some main.countUpdate, selecting := none },
        some (.connection (.updateMsg message (updateTreatment errors)))) := by
  have established : main.countUpdate.state = .established := up
  have ran : runHandler (handleEvent out p.policy.openMessage
      (.updateMsg message (updateTreatment errors))) main.countUpdate = (main.countUpdate, none) := by
    rw [runHandler, handleEvent, Handler.bind_apply, Handler.get_apply]
    simp only [established]
    rfl
  have after : afterEvent { p with connection := some main.countUpdate } main.countUpdate
      main.countUpdate.state (.updateMsg message (updateTreatment errors)) =
        .ok { p with connection := some main.countUpdate } := by
    rw [afterEvent.eq_def]
    simp only [established]
  have alone' : checkConnectionCollision p.properties.myBgpId (some main.countUpdate)
      (p.visible s) = none := alone
  exact step_main_handles busy main_ (main.pollNext_update valid) alone' ran after

theorem sends?_of_read {s : Selecting} {main : Connection}
    {errors : List PathAttributeParsingError} {otherEor : Option Daemon.AddressType}
    (out outCease : Sending) (busy : p.selecting = some s) (main_ : p.connection = some main)
    (up : main.state = .established) (fsm : p.fsmState = .established)
    (valid : handleUpdateMessage otherEor message (updateTreatment errors) =
      some (.updateMsg message (updateTreatment errors)))
    (alone : checkConnectionCollision p.properties.myBgpId (some main) (p.visible s) = none) :
    p.sends? (.main (.message (.update message) errors otherEor) out outCease) =
      if updateTreatment errors = .normal then (Update.tryFrom message).toOption else none := by
  rw [sends?, step_of_read out outCease busy main_ up valid alone]
  change FsmResult.update? (.ok (p.fsmState, .updateMsg message (updateTreatment errors))) = _
  rw [fsm]
  rfl

theorem sends?_eq_accepts?_update {s : Selecting} {main : Connection}
    {errors : List PathAttributeParsingError} {otherEor : Option Daemon.AddressType}
    {out outCease : Sending} (follows : p.Follows) (main_ : p.connection = some main)
    (busy : p.selecting = some s) :
    p.sends? (.main (.message (.update message) errors otherEor) out outCease) =
      p.accepts? (.main (.message (.update message) errors otherEor) out outCease) := by
  rw [accepts?, main_, busy]
  dsimp only
  by_cases valid : handleUpdateMessage otherEor message (updateTreatment errors) =
      some (.updateMsg message (updateTreatment errors))
  · by_cases up : main.state = .established
    · cases check : checkConnectionCollision p.properties.myBgpId (some main) (p.visible s) with
      | some verdict =>
          rw [sends?_of_collision out outCease busy main_ (main.pollNext_update valid) check,
            if_neg (by simp)]
      | none =>
          have fsm : p.fsmState = .established := by
            have agrees := follows.agrees
            rw [main_, Option.map_some, up] at agrees
            exact agrees
          rw [sends?_of_read out outCease busy main_ up fsm valid check]
          by_cases normal : updateTreatment errors = .normal
          · rw [normal] at valid
            rw [if_pos normal, if_pos ⟨up, normal, valid, rfl⟩]
          · rw [if_neg normal, if_neg fun h => normal h.2.1]
    · rw [if_neg fun h => up h.1]
      refine sends?_of_not_reads ?_
      rintro _ _ ⟨here, established⟩
      rw [main_] at here
      cases here
      exact up established
  · rw [if_neg fun h => valid (by rw [h.2.1]; exact h.2.2.1)]
    refine sends?_of_not_reads ?_
    rintro _ _ ⟨-, -, _, _, _, valid'⟩
    exact valid valid'

/-- Where the machine follows the connection, a step hands over what is accepted. -/
theorem sends?_eq_accepts? (follows : p.Follows) (input : Input) :
    p.sends? input = p.accepts? input := by
  have others {input : Input} (h : ∀ message errors, ¬ p.Reads message errors input)
      (none_ : p.accepts? input = none) : p.sends? input = p.accepts? input :=
    (sends?_of_not_reads h).trans none_.symm
  cases input with
  | main stimulus out outCease =>
      cases stimulus with
      | message read errors otherEor =>
          cases read with
          | update message =>
              cases main_ : p.connection with
              | none =>
                  refine others ?_ ?_
                  · rintro _ _ ⟨here⟩
                    rw [main_] at here
                    cases here
                  · rw [accepts?, main_]
              | some main =>
                  cases busy : p.selecting with
                  | none => rw [sends?, step.eq_def, accepts?, main_, busy]
                  | some s => exact sends?_eq_accepts?_update follows main_ busy
          | _ => exact others (by rintro _ _ ⟨⟩) rfl
      | _ => exact others (by rintro _ _ ⟨⟩) rfl
  | _ => exact others (by rintro _ _ ⟨⟩) rfl

/-! ## Along a run -/

/-- What a run hands over. -/
def accepted (p : Peer) : List Input → List Update
  | [] => []
  | input :: rest =>
      match p.next input with
      | .ok q => (p.accepts? input).toList ++ q.accepted rest
      | .error _ => []

theorem processBgpUpdates_results {inputs : List Input} (follows : p.Follows)
    (undisturbed : Along (fun p input q => p.next input = .ok q) Undisturbed p inputs) :
    processBgpUpdates (p.results inputs) = p.accepted inputs := by
  induction inputs generalizing p with
  | nil => rfl
  | cons input rest ih =>
      obtain ⟨here, later⟩ := undisturbed
      rw [accepted, ← sends?_eq_accepts? follows, sends?, results, deliveries]
      cases stepped : p.step input with
      | error error => 
          rw [next, stepped]
          rfl
      | ok result =>
          obtain ⟨q, delivered⟩ := result
          have next_ : p.next input = .ok q := by
            rw [next, stepped]
            rfl
          have rest_ := ih (next_follows here follows next_) (later q next_)
          rw [next_]
          cases delivered with
          | none => exact rest_
          | some event =>
              dsimp only
              rw [List.map_cons, processBgpUpdates]
              exact congrArg _ rest_

/-- Along an undisturbed run the table is what the accepted UPDATEs make of it. -/
theorem table_of_accepted (properties : PeerProperties) (config : PeerConfig)
    (policy : EchoCapabilitiesPolicy) {inputs : List Input}
    (undisturbed : Along (fun p input q => p.next input = .ok q) Undisturbed
      (new properties config policy) inputs) :
    ∃ c, drained ((new properties config policy).results inputs) = .ok c ∧
      c.rib.nexthop? =
        final (((new properties config policy).accepted inputs).flatMap Update.ops) fun _ => none := by
  obtain ⟨c, ran, table⟩ := nexthop?_drained ((new properties config policy).results inputs)
  refine ⟨c, ran, ?_⟩
  rw [table, routeOps,
    processBgpUpdates_results (new_follows properties config policy) undisturbed]

theorem exampleRoute_table :
    ((new exampleProperties .default examplePolicy).accepted exampleRoute).length = 1 ∧
      ∃ c, drained ((new exampleProperties .default examplePolicy).results exampleRoute) = .ok c ∧
        c.rib.nexthop? =
          final (((new exampleProperties .default examplePolicy).accepted exampleRoute).flatMap
            Update.ops) fun _ => none :=
  ⟨rfl, table_of_accepted exampleProperties .default examplePolicy exampleRoute_undisturbed⟩

end Peer

end Erez.Speaker
