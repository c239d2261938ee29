import Mathlib

/-! # Last-writer-wins maps

A sequence of puts and deletes on keys. What a key maps to afterwards depends
only on the operations on that key, and of these only on the last.
-/

namespace Erez.Lib.LastWriter

variable {κ ν : Type*}

inductive Op (κ ν : Type*) where
  | put (k : κ) (v : ν)
  | delete (k : κ)
  deriving DecidableEq

namespace Op

def key : Op κ ν → κ
  | put k _ => k
  | delete k => k

def value : Op κ ν → Option ν
  | put _ v => some v
  | delete _ => none

variable [DecidableEq κ]

def apply (op : Op κ ν) (m : κ → Option ν) : κ → Option ν :=
  Function.update m op.key op.value

theorem apply_self (op : Op κ ν) (m : κ → Option ν) : op.apply m op.key = op.value := by
  rw [apply, Function.update_self]

theorem apply_of_ne {op : Op κ ν} {k : κ} (h : op.key ≠ k) (m : κ → Option ν) :
    op.apply m k = m k := by
  rw [apply, Function.update_of_ne h.symm]

end Op

variable [DecidableEq κ]

/-- The map after a sequence of operations. -/
def final (ops : List (Op κ ν)) (m : κ → Option ν) : κ → Option ν :=
  ops.foldl (fun m op => op.apply m) m

theorem final_append (ops ops' : List (Op κ ν)) (m : κ → Option ν) :
    final (ops ++ ops') m = final ops' (final ops m) :=
  List.foldl_append

/-- The operations on one key. -/
def on (k : κ) (ops : List (Op κ ν)) : List (Op κ ν) :=
  ops.filter fun op => op.key = k

theorem on_append (k : κ) (ops ops' : List (Op κ ν)) : on k (ops ++ ops') = on k ops ++ on k ops' :=
  List.filter_append ops ops'

theorem on_eq_nil {k : κ} {ops : List (Op κ ν)} : on k ops = [] ↔ ∀ op ∈ ops, op.key ≠ k := by
  simp [on, List.filter_eq_nil_iff]

/-- The last operation on a key decides; without one the key keeps its value. -/
theorem final_eq_last (ops : List (Op κ ν)) (m : κ → Option ν) (k : κ) :
    final ops m k = ((on k ops).getLast?.map Op.value).getD (m k) := by
  induction ops using List.reverseRecOn with
  | nil => rfl
  | append_singleton ops op ih =>
      rw [final_append, on_append]
      by_cases here : op.key = k
      · subst here
        simpa [on, final] using op.apply_self (final ops m)
      · have elsewhere : on k [op] = [] := on_eq_nil.mpr (by simpa using here)
        rw [elsewhere, List.append_nil, ← ih]
        exact Op.apply_of_ne here (final ops m)

/-- What a key has in the end was put there. -/
theorem put_mem_of_final {ops : List (Op κ ν)} {k : κ} {v : ν}
    (held : final ops (fun _ => none) k = some v) : .put k v ∈ ops := by
  rw [final_eq_last] at held
  cases last : (on k ops).getLast? with
  | none =>
      rw [last] at held
      cases held
  | some op =>
      have member := List.mem_filter.mp (List.mem_of_getLast? last)
      rw [last] at held
      cases op with
      | delete k' => cases held
      | put k' v' =>
          obtain rfl : k' = k := of_decide_eq_true member.2
          cases held
          exact member.1

theorem final_of_untouched {ops : List (Op κ ν)} {k : κ} (h : ∀ op ∈ ops, op.key ≠ k)
    (m : κ → Option ν) : final ops m k = m k := by
  rw [final_eq_last, on_eq_nil.mpr h]
  rfl

/-- A key that is deleted and not put again is gone. -/
theorem final_deletes {ks : List κ} {k : κ} (h : k ∈ ks) (m : κ → Option ν) :
    final (ks.map .delete) m k = none := by
  induction ks generalizing m with
  | nil => simp at h
  | cons first ks ih =>
      by_cases later : k ∈ ks
      · exact ih later _
      · obtain rfl : k = first := (List.mem_cons.mp h).resolve_right later
        have untouched : ∀ op ∈ (ks.map .delete : List (Op κ ν)), op.key ≠ k := by
          rintro op member rfl
          obtain ⟨other, present, rfl⟩ := List.mem_map.mp member
          exact later present
        have rest := final_of_untouched untouched ((Op.delete k).apply m)
        exact rest.trans (Op.apply_self (.delete k) m)

/-- A value that was put by the operations themselves is there whatever they
    were applied to, and whatever else was done to other keys. -/
theorem final_congr {ops ops' : List (Op κ ν)} {k : κ} (same : on k ops = on k ops') {v : ν}
    (h : final ops (fun _ => none) k = some v) (m : κ → Option ν) : final ops' m k = some v := by
  rw [final_eq_last, same] at h
  rw [final_eq_last]
  cases last : (on k ops').getLast? with
  | none => simp [last] at h
  | some op => simpa [last] using h

/-! ## The puts that stand -/

/-- The puts that no later operation on their key replaces or undoes, oldest first. -/
def latestPuts : List (Op κ ν) → List (κ × ν)
  | [] => []
  | .put k v :: rest =>
      if ∀ op ∈ rest, op.key ≠ k then (k, v) :: latestPuts rest else latestPuts rest
  | .delete _ :: rest => latestPuts rest

/-- One more operation removes the entry of its key; a put adds its own at the end. -/
theorem latestPuts_concat (ops : List (Op κ ν)) (op : Op κ ν) :
    latestPuts (ops ++ [op]) =
      (latestPuts ops).filter (·.1 ≠ op.key) ++ (op.value.map (op.key, ·)).toList := by
  induction ops with
  | nil => cases op <;> simp [latestPuts, Op.key, Op.value]
  | cons first rest ih =>
      cases first with
      | delete k => exact ih
      | put k v =>
          simp only [List.cons_append, latestPuts, List.forall_mem_append, List.forall_mem_singleton]
          by_cases last : ∀ later ∈ rest, later.key ≠ k
          · rw [if_pos last, ih]
            by_cases here : op.key = k
            · simp [here]
            · simpa [here, Ne.symm here] using last
          · rw [if_neg last, if_neg (fun both => last both.1), ih]

theorem latestPuts_put (ops : List (Op κ ν)) (k : κ) (v : ν) :
    latestPuts (ops ++ [.put k v]) = (latestPuts ops).filter (·.1 ≠ k) ++ [(k, v)] :=
  latestPuts_concat ops (.put k v)

theorem latestPuts_delete (ops : List (Op κ ν)) (k : κ) :
    latestPuts (ops ++ [.delete k]) = (latestPuts ops).filter (·.1 ≠ k) :=
  (latestPuts_concat ops (.delete k)).trans (List.append_nil _)

/-- A put stands exactly if it is the last operation on its key. -/
theorem mem_latestPuts {ops : List (Op κ ν)} {k : κ} {v : ν} :
    (k, v) ∈ latestPuts ops ↔ (on k ops).getLast? = some (.put k v) := by
  induction ops using List.reverseRecOn with
  | nil => simp [latestPuts, on]
  | append_singleton ops op ih =>
      rw [latestPuts_concat, on_append]
      by_cases here : op.key = k
      · cases op with
        | put k' v' =>
            obtain rfl : k' = k := here
            simp [on, Op.key, Op.value, eq_comm]
        | delete k' =>
            obtain rfl : k' = k := here
            simp [on, Op.key, Op.value]
      · have elsewhere : on k [op] = [] := on_eq_nil.mpr (by simpa using here)
        rw [elsewhere, List.append_nil, ← ih]
        simp [here, Ne.symm here]

end Erez.Lib.LastWriter
