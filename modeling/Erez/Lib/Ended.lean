import Mathlib

/-! # Programs that keep their state when they stop

A program reads and changes a state, and answers or stops with an error; either way
what it has done to the state stays. `Ended R` says of a result that the answer and
the state are as `R` says, and the rules take a program apart.
-/

namespace Erez.Lib

variable {ε σ α β : Type}

/-- The answer of a program and what it has made of the state. -/
def Ended (R : σ → Except ε α → Prop) : EStateM.Result ε σ α → Prop
  | .ok a s => R s (.ok a)
  | .error e s => R s (.error e)

namespace Ended

variable {R : σ → Except ε α → Prop} {Q : σ → Except ε β → Prop} {s : σ}

theorem mono {R' : σ → Except ε α → Prop} {result : EStateM.Result ε σ α} (h : Ended R result)
    (weaker : ∀ s answer, R s answer → R' s answer) : Ended R' result := by
  cases result with
  | ok a s => exact weaker s (.ok a) h
  | error e s => exact weaker s (.error e) h

/-- The rule of sequence: what stops the first program stops both. -/
theorem bind {x : EStateM ε σ α} {f : α → EStateM ε σ β} (first : Ended R (x.run s))
    (next : ∀ a s', R s' (.ok a) → Ended Q ((f a).run s'))
    (stops : ∀ e s', R s' (.error e) → Q s' (.error e)) : Ended Q ((x >>= f).run s) := by
  rw [EStateM.run_bind]
  cases ran : x.run s with
  | ok a s' =>
      rw [ran] at first
      exact next a s' first
  | error e s' =>
      rw [ran] at first
      exact stops e s' first

theorem map {x : EStateM ε σ α} {f : α → β}
    (h : Ended (fun s answer => Q s (answer.map f)) (x.run s)) : Ended Q ((f <$> x).run s) := by
  rw [map_eq_pure_bind]
  exact bind h (fun _ _ ok => ok) fun _ _ stopped => stopped

theorem get_bind {f : σ → EStateM ε σ β} (h : Ended Q ((f s).run s)) :
    Ended Q ((get >>= f).run s) :=
  h

theorem modify_bind {g : σ → σ} {f : PUnit → EStateM ε σ β} (h : Ended Q ((f ⟨⟩).run (g s))) :
    Ended Q ((modify g >>= f).run s) :=
  h

theorem set_bind {s' : σ} {f : PUnit → EStateM ε σ β} (h : Ended Q ((f ⟨⟩).run s')) :
    Ended Q ((set s' >>= f).run s) :=
  h

end Ended

end Erez.Lib
