import Erez.Speaker.Safety

/-! # Dialing

A peer dials once each time the connect retry timer runs out. An answer to the dialing,
good or bad, stops that timer, and nothing but the timer or a start allows the next
attempt.
-/

namespace Erez.Speaker

open Daemon Lib

namespace Peer

variable {p : Peer}

/-- The peer waits for the answer to its dialing, and has no connection. -/
structure Dialing (p : Peer) : Prop where
  selecting : ∃ s, p.selecting = some s ∧ s.dialing = true
  connecting : p.fsmState = .connect
  spent : p.allowedToActiveConnect = false
  connection : p.connection = none
  tracked : p.trackedConnection = none
  waiting : ∀ admin ∈ p.waitingAdminEvents, admin.IsStart

/-- It neither dials nor waits for anything but an event from outside. -/
structure Grounded (p : Peer) : Prop where
  selecting : ∀ s, p.selecting = some s → s.dialing = false
  connecting : p.fsmState = .connect
  spent : p.allowedToActiveConnect = false
  timer : p.connectRetryTimer = none
  connection : p.connection = none
  tracked : p.trackedConnection = none
  waiting : ∀ admin ∈ p.waitingAdminEvents, admin.IsStart

theorem Dialing.refused (dialing : p.Dialing) (out : Sending) :
    ∃ q, p.step (.dialed none out) = .ok (q, some (.connection .tcpConnectionFails)) ∧
      q.fsmState = .connect ∧ q.Grounded := by
  obtain ⟨s, busy, dialing_⟩ := dialing.selecting
  refine ⟨{ p.takeRetryTimer with selecting := none }, ?_, dialing.connecting, ?_⟩
  · simp only [step, busy, dialing_, if_true]
    rfl
  · exact ⟨by rintro s ⟨⟩, dialing.connecting, dialing.spent, rfl, dialing.connection,
      dialing.tracked, dialing.waiting⟩

/-- Every start is ignored. -/
theorem Grounded.ignores (grounded : p.Grounded) (timing : Timing) (out outTracked : Sending)
    {admin : PeerAdminEvent} (start : admin.IsStart) :
    finish (runAdmin timing out outTracked admin p) = .ok (p, none) := by
  have away : p.fsmState ≠ .idle := by
    rw [grounded.connecting]
    decide
  have ignored (event passive : BgpEvent) : runStart event passive p = .ok none p := by
    change (if p.fsmState ≠ .idle then (pure none : Step _) else _) p = _
    rw [if_pos away]
    rfl
  rcases start with rfl | rfl
  · exact congrArg finish (ignored .manualStart .manualStartWithPassiveTcp)
  · exact congrArg finish (ignored .automaticStart .automaticStartWithPassiveTcp)

theorem Grounded.noted (grounded : p.Grounded) (selecting : Option Selecting)
    {waiting : List PeerAdminEvent} (starts : ∀ admin ∈ waiting, admin.IsStart)
    (idle : ∀ s, selecting = some s → s.dialing = false) :
    ({ p with waitingAdminEvents := waiting, selecting } : Peer).Grounded :=
  ⟨idle, grounded.connecting, grounded.spent, grounded.timer, grounded.connection,
    grounded.tracked, starts⟩

/-- Whatever happens, no step comes to anything. -/
theorem Grounded.step (grounded : p.Grounded) (input : Input)
    (start : ∀ admin, input = .peerEvent (some admin) → admin.IsStart) :
    ∃ q, p.step input = .ok (q, none) ∧ q.Grounded := by
  cases input with
  | peerEvent admin =>
      refine ⟨_, rfl, grounded.noted none ?_ (by rintro s ⟨⟩)⟩
      intro waits member
      rcases List.mem_append.mp member with old | new
      · exact grounded.waiting waits old
      · exact start waits (congrArg Input.peerEvent (Option.mem_toList.mp new))
  | admin timing out outTracked =>
      cases busy : p.selecting with
      | some s => exact ⟨p, by simp only [Peer.step, busy], grounded⟩
      | none =>
          cases due : p.waitingAdminEvents.getLast? with
          | none => exact ⟨p, by simp only [Peer.step, busy, due], grounded⟩
          | some admin =>
              have grounded' := grounded.noted (some ⟨false, false⟩)
                (fun admin member => grounded.waiting admin (List.dropLast_subset _ member))
                (by rintro s ⟨⟩; rfl)
              refine ⟨_, ?_, grounded'⟩
              simp only [Peer.step, busy, due]
              exact grounded'.ignores timing out outTracked
                (grounded.waiting admin (List.mem_of_getLast? due))
  | wait =>
      cases busy : p.selecting with
      | some s => exact ⟨p, by simp only [Peer.step, busy], grounded⟩
      | none =>
          simp only [Peer.step, busy]
          split
          · exact ⟨_, rfl, grounded.noted _ grounded.waiting (by rintro s ⟨⟩; rfl)⟩
          · exact ⟨p, rfl, grounded⟩
  | dial =>
      refine ⟨p, ?_, grounded⟩
      cases busy : p.selecting with
      | none => simp only [Peer.step, busy]
      | some s => simp [Peer.step, busy, grounded.spent]
  | dialed stream out =>
      refine ⟨p, ?_, grounded⟩
      cases busy : p.selecting with
      | none => simp only [Peer.step, busy]
      | some s => simp [Peer.step, busy, grounded.selecting s busy]
  | connectRetryTick =>
      refine ⟨p, ?_, grounded⟩
      cases busy : p.selecting with
      | none => simp only [Peer.step, busy]
      | some s => simp [Peer.step, busy, grounded.timer]
  | main stimulus out outCease =>
      refine ⟨p, ?_, grounded⟩
      cases busy : p.selecting with
      | none => simp only [Peer.step, busy]
      | some s =>
          have silent : mainEvent s stimulus out outCease p = .ok none p := by
            change EStateM.run (mainEvent s stimulus out outCease) p = _
            rw [mainEvent, EStateM.run_bind, EStateM.run_get]
            simp only [grounded.connection]
            rfl
          simp only [Peer.step, busy, silent]
          rfl
  | tracked stimulus out outCease =>
      refine ⟨p, ?_, grounded⟩
      cases busy : p.selecting with
      | none => simp only [Peer.step, busy]
      | some s =>
          have silent : trackedEvent s stimulus out outCease p = .ok none p := by
            change EStateM.run (trackedEvent s stimulus out outCease) p = _
            rw [trackedEvent, EStateM.run_bind, EStateM.run_get]
            simp only [visible, grounded.tracked, ite_self]
            rfl
          simp only [Peer.step, busy, silent]
          rfl

theorem Grounded.run (grounded : p.Grounded) {inputs : List Input}
    (starts : ∀ admin, .peerEvent (some admin) ∈ inputs → admin.IsStart) :
    p.deliveries inputs = [] ∧ ∃ q, inputs.foldlM next p = .ok q ∧ q.Grounded := by
  induction inputs generalizing p with
  | nil => exact ⟨rfl, p, rfl, grounded⟩
  | cons input inputs ih =>
      obtain ⟨q, stepped, grounded'⟩ := grounded.step input
        fun admin same => starts admin (same ▸ List.mem_cons_self)
      obtain ⟨silent, q', ran, last⟩ :=
        ih grounded' fun admin member => starts admin (List.mem_cons_of_mem _ member)
      constructor
      · rw [Peer.deliveries, stepped]
        exact silent
      · exact ⟨q', foldlM_cons_ok.mpr ⟨q, by rw [next, stepped]; rfl, ran⟩, last⟩

/-- A dial that is refused is the last: a peer without a connection then says that the dial has
    failed, and nothing ever again, whatever timers run out and however often it is started.
    It stays in `Connect`, with no connection and no leave to dial. -/
theorem refused_dial_is_final (dialing : p.Dialing) (out : Sending) (inputs : List Input)
    (starts : ∀ admin, .peerEvent (some admin) ∈ inputs → admin.IsStart) :
    p.deliveries (.dialed none out :: inputs) =
        [.ok (.connect, .connection .tcpConnectionFails)] ∧
      ∃ q, (.dialed none out :: inputs).foldlM next p = .ok q ∧ q.fsmState = .connect ∧
        q.connection = none ∧ q.allowedToActiveConnect = false := by
  obtain ⟨refused, stepped, connecting, grounded⟩ := dialing.refused out
  obtain ⟨silent, q, ran, last⟩ := grounded.run starts
  constructor
  · rw [Peer.deliveries, stepped]
    simp only [connecting, silent]
  · refine ⟨q, foldlM_cons_ok.mpr ⟨refused, by rw [next, stepped]; rfl, ran⟩, ?_⟩
    exact ⟨last.connecting, last.connection, last.spent⟩

/-- The dial is refused, and the peer is started once more. -/
def exampleRefusal : List Input :=
  [.dialed none allSent, .peerEvent (some .manualStart), .admin exampleTiming allSent allSent,
    .wait, .connectRetryTick]

theorem exampleDial_refused :
    ∃ p, exampleDial.foldlM next (new exampleProperties .default examplePolicy) = .ok p ∧
      p.deliveries exampleRefusal = [.ok (.connect, .connection .tcpConnectionFails)] ∧
      ∃ q, exampleRefusal.foldlM next p = .ok q ∧ q.fsmState = .connect ∧
        q.connection = none ∧ q.allowedToActiveConnect = false := by
  refine ⟨_, rfl, refused_dial_is_final ⟨⟨_, rfl, rfl⟩, rfl, rfl, rfl, rfl, ?_⟩ allSent _ ?_⟩
  · rintro _ ⟨⟩
  · intro admin member
    simp at member
    exact .inl member

end Peer

end Erez.Speaker
