import Mathlib

/-! # Runs of a step relation

A property of a run is a property of every state it passes through, together
with the input that arrives there. `Along` states it, and `Along.imp` is the
invariant rule: what one step keeps, every state of the run has.
-/

namespace Erez.Lib

variable {σ ι : Type*}

/-- A run that succeeds does so step by step. -/
theorem foldlM_cons_ok {ε : Type*} {step : σ → ι → Except ε σ} {s s' : σ} {i : ι} {rest : List ι} :
    (i :: rest).foldlM step s = .ok s' ↔
      ∃ next, step s i = .ok next ∧ rest.foldlM step next = .ok s' := by
  rw [List.foldlM_cons]
  cases step s i with
  | error e => simp [bind, Except.bind]
  | ok next => simp [bind, Except.bind]

theorem foldlM_append_ok {ε : Type*} {step : σ → ι → Except ε σ} {s next s' : σ}
    {earlier later : List ι} (first : earlier.foldlM step s = .ok next)
    (second : later.foldlM step next = .ok s') :
    (earlier ++ later).foldlM step s = .ok s' := by
  rw [List.foldlM_append, first]
  exact second

/-- Steps that never fail make runs that never fail. -/
theorem foldlM_total {ε : Type*} {step : σ → ι → Except ε σ}
    (total : ∀ s i, ∃ s', step s i = .ok s') (s : σ) (inputs : List ι) :
    ∃ s', inputs.foldlM step s = .ok s' := by
  induction inputs generalizing s with
  | nil => exact ⟨s, rfl⟩
  | cons i rest ih =>
      obtain ⟨next, stepped⟩ := total s i
      obtain ⟨last, ran⟩ := ih next
      exact ⟨last, foldlM_cons_ok.mpr ⟨next, stepped, ran⟩⟩

/-- What no step changes, no run changes. -/
theorem foldl_keeps {β : Type*} {step : σ → ι → σ} (view : σ → β)
    (keeps : ∀ s i, view (step s i) = view s) (s : σ) (inputs : List ι) :
    view (inputs.foldl step s) = view s := by
  induction inputs generalizing s with
  | nil => rfl
  | cons i rest ih => exact (ih (step s i)).trans (keeps s i)

/-- What every step keeps holds at the end of every run that succeeds. -/
theorem foldlM_invariant {ε : Type*} {step : σ → ι → Except ε σ} (Inv : σ → Prop)
    (keep : ∀ s i s', Inv s → step s i = .ok s' → Inv s') {s s' : σ} {inputs : List ι}
    (start : Inv s) (run : inputs.foldlM step s = .ok s') : Inv s' := by
  induction inputs generalizing s with
  | nil =>
      cases run
      exact start
  | cons i rest ih =>
      obtain ⟨next, stepped, later⟩ := foldlM_cons_ok.mp run
      exact ih (keep s i next start stepped) later

/-- The invariant rule. What every step of the run keeps, where `P` holds, holds at
    its end. -/
theorem foldl_invariant {step : σ → ι → σ} (Inv : σ → Prop) (P : σ → ι → Prop)
    (keep : ∀ s i, Inv s → P s i → Inv (step s i)) {s : σ} (start : Inv s) {inputs : List ι}
    (along : ∀ earlier i, earlier ++ [i] <+: inputs → P (earlier.foldl step s) i) :
    Inv (inputs.foldl step s) := by
  induction inputs using List.reverseRecOn with
  | nil => exact start
  | append_singleton inputs i ih =>
      have before := ih fun earlier j inside =>
        along earlier j (inside.trans (List.prefix_append _ _))
      rw [List.foldl_concat]
      exact keep _ i before (along inputs i List.prefix_rfl)

/-- The frame rule. A part of the state that its own inputs move by themselves, and
    that all others leave alone, is what its own inputs make of it. -/
theorem foldl_frame {β : Type*} {step : σ → ι → σ} {view : σ → β} {move : β → ι → β}
    {own : ι → Bool} {inputs : List ι}
    (moves : ∀ s, ∀ i ∈ inputs, own i → view (step s i) = move (view s) i)
    (keeps : ∀ s, ∀ i ∈ inputs, ¬ own i → view (step s i) = view s) (s : σ) :
    view (inputs.foldl step s) = (inputs.filter own).foldl move (view s) := by
  induction inputs generalizing s with
  | nil => rfl
  | cons i rest ih =>
      have later := ih (fun s j member => moves s j (List.mem_cons_of_mem i member))
        (fun s j member => keeps s j (List.mem_cons_of_mem i member)) (step s i)
      rw [List.foldl_cons, later, List.filter_cons]
      by_cases mine : own i = true
      · rw [if_pos mine, List.foldl_cons, moves s i List.mem_cons_self mine]
      · rw [if_neg mine, keeps s i List.mem_cons_self mine]

/-- `P` holds at every input of the run, in the state that meets it. -/
def Along (Step : σ → ι → σ → Prop) (P : σ → ι → Prop) : σ → List ι → Prop
  | _, [] => True
  | s, i :: rest => P s i ∧ ∀ s', Step s i s' → Along Step P s' rest

namespace Along

variable {Step : σ → ι → σ → Prop} {P Q : σ → ι → Prop}

/-- An invariant `Inv` may be used, and must be kept, where `P` holds. -/
theorem imp (Inv : σ → Prop) (keep : ∀ s i s', Inv s → P s i → Step s i s' → Inv s')
    (use : ∀ s i, Inv s → P s i → Q s i) {s : σ} {inputs : List ι} (start : Inv s)
    (h : Along Step P s inputs) : Along Step Q s inputs := by
  induction inputs generalizing s with
  | nil => trivial
  | cons i rest ih =>
      obtain ⟨here, later⟩ := h
      refine ⟨use s i start here, fun s' step => ?_⟩
      exact ih (keep s i s' start here step) (later s' step)

/-- One step of a run that is known. -/
theorem cons_ok {ε : Type*} {next : σ → ι → Except ε σ} {s t : σ} {i : ι} {rest : List ι}
    (here : P s i) (stepped : next s i = .ok t)
    (later : Along (fun s i t => next s i = .ok t) P t rest) :
    Along (fun s i t => next s i = .ok t) P s (i :: rest) := by
  refine ⟨here, fun t' stepped' => ?_⟩
  obtain rfl := Except.ok.inj (stepped.symm.trans stepped')
  exact later

theorem of_inputs {R : ι → Prop} (s : σ) {inputs : List ι} (known : ∀ i ∈ inputs, R i) :
    Along Step (fun _ i => R i) s inputs := by
  induction inputs generalizing s with
  | nil => trivial
  | cons i rest ih =>
      refine ⟨known i List.mem_cons_self, fun s' _ => ?_⟩
      exact ih s' fun j member => known j (List.mem_cons_of_mem i member)

/-- What is known of every input may be used at each of them. -/
theorem and_inputs {R : ι → Prop} {s : σ} {inputs : List ι} (h : Along Step P s inputs)
    (known : ∀ i ∈ inputs, R i) : Along Step (fun s i => P s i ∧ R i) s inputs := by
  induction inputs generalizing s with
  | nil => trivial
  | cons i rest ih =>
      obtain ⟨here, later⟩ := h
      refine ⟨⟨here, known i List.mem_cons_self⟩, fun s' step => ?_⟩
      exact ih (later s' step) fun j member => known j (List.mem_cons_of_mem i member)

/-- What every step keeps, where `P` holds, holds where the run has got to. -/
theorem invariant {ε : Type*} {step : σ → ι → Except ε σ} (Inv : σ → Prop)
    (keep : ∀ s i s', Inv s → P s i → step s i = .ok s' → Inv s') {s s' : σ} {inputs : List ι}
    (start : Inv s) (h : Along (fun s i s' => step s i = .ok s') P s inputs)
    (run : inputs.foldlM step s = .ok s') : Inv s' := by
  induction inputs generalizing s with
  | nil =>
      cases run
      exact start
  | cons i rest ih =>
      obtain ⟨next, stepped, later⟩ := foldlM_cons_ok.mp run
      exact ih (keep s i next start h.1 stepped) (h.2 next stepped) later

/-- What holds along a run holds where it has got to. -/
theorem at_last {ε : Type*} {step : σ → ι → Except ε σ} {s s' : σ} {inputs : List ι} {i : ι}
    (h : Along (fun s i s' => step s i = .ok s') P s (inputs ++ [i]))
    (run : inputs.foldlM step s = .ok s') : P s' i := by
  induction inputs generalizing s with
  | nil =>
      cases run
      exact h.1
  | cons first rest ih =>
      obtain ⟨next, stepped, later⟩ := foldlM_cons_ok.mp run
      exact ih (h.2 next stepped) later

theorem congr (same : ∀ s i, P s i ↔ Q s i) (s : σ) (inputs : List ι) :
    Along Step P s inputs ↔ Along Step Q s inputs := by
  constructor
  · exact imp (fun _ => True) (fun _ _ _ _ _ _ => trivial) (fun s i _ => (same s i).mp)
      trivial
  · exact imp (fun _ => True) (fun _ _ _ _ _ _ => trivial) (fun s i _ => (same s i).mpr)
      trivial

end Along

end Erez.Lib
