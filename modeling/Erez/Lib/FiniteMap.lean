import Mathlib

/-! # Finite maps with an arbitrary iteration order

A hash map is an association list with distinct keys. Lookups do not see the
order of the entries; iteration does, and the order a hash map iterates in is
unspecified. `IterOrder` makes that choice explicit: code that iterates takes
one, and results about it hold for every choice.
-/

namespace Erez.Lib

/-- A map with finitely many keys, each with one value. -/
abbrev FiniteMap (κ ν : Type*) := AList fun _ : κ => ν

/-- How a map of each size is iterated. -/
abbrev IterOrder := (size : ℕ) → Equiv.Perm (Fin size)

namespace IterOrder

/-- The order in which the entries happen to be stored. -/
def stored : IterOrder := fun _ => 1

def iterate {α : Type*} (order : IterOrder) (entries : List α) : List α :=
  List.ofFn (entries.get ∘ order entries.length)

theorem iterate_perm {α : Type*} (order : IterOrder) (entries : List α) :
    (order.iterate entries).Perm entries := by
  simpa only [iterate, List.ofFn_get] using
    (order entries.length).ofFn_comp_perm entries.get

end IterOrder

namespace FiniteMap

variable {κ ν ω ε : Type*}

def values (m : FiniteMap κ ν) : List ν :=
  m.entries.map (·.2)

def mapValues (f : ν → ω) (m : FiniteMap κ ν) : FiniteMap κ ω where
  entries := m.entries.map fun e => ⟨e.1, f e.2⟩
  nodupKeys := by
    have same : (m.entries.map fun e => (⟨e.1, f e.2⟩ : Σ _ : κ, ω)).keys = m.entries.keys := by
      simp [List.keys, Function.comp_def]
    rw [List.NodupKeys, same]
    exact m.keys_nodup

@[simp]
theorem keys_mapValues (f : ν → ω) (m : FiniteMap κ ν) : (mapValues f m).keys = m.keys := by
  simp [AList.keys, mapValues, List.keys, Function.comp_def]

@[simp]
theorem values_mapValues (f : ν → ω) (m : FiniteMap κ ν) :
    values (mapValues f m) = (values m).map f := by
  simp [values, mapValues, Function.comp_def]

@[simp]
theorem mem_mapValues {f : ν → ω} {m : FiniteMap κ ν} {k : κ} : k ∈ mapValues f m ↔ k ∈ m := by
  rw [AList.mem_keys, keys_mapValues, AList.mem_keys]

/-- Keep the entries that `f` has a value for, as `retain` and `filter_map` do. -/
def filterMapValues (f : ν → Option ω) (m : FiniteMap κ ν) : FiniteMap κ ω where
  entries := m.entries.filterMap fun e => (f e.2).map fun w => ⟨e.1, w⟩
  nodupKeys := by
    have kept : ((m.entries.filterMap fun e => (f e.2).map fun w =>
        (⟨e.1, w⟩ : Σ _ : κ, ω)).keys).Sublist m.entries.keys := by
      induction m.entries with
      | nil => exact .slnil
      | cons e rest ih =>
          cases found : f e.2 with
          | none => simpa [List.filterMap_cons, found] using ih.cons e.1
          | some w => simpa [List.filterMap_cons, found] using ih.cons_cons e.1
    exact m.keys_nodup.sublist kept

variable [DecidableEq κ]

def get? (m : FiniteMap κ ν) (k : κ) : Option ν :=
  AList.lookup k m

def insert (m : FiniteMap κ ν) (k : κ) (v : ν) : FiniteMap κ ν :=
  AList.insert k v m

def erase (m : FiniteMap κ ν) (k : κ) : FiniteMap κ ν :=
  AList.erase k m

@[simp]
theorem get?_empty (k : κ) : get? (∅ : FiniteMap κ ν) k = none :=
  AList.lookup_empty k

theorem get?_insert (m : FiniteMap κ ν) (k k' : κ) (v : ν) :
    (m.insert k' v).get? k = if k = k' then some v else m.get? k := by
  split
  · rename_i h
    subst h
    exact AList.lookup_insert m
  · rename_i h
    exact AList.lookup_insert_ne h

theorem get?_erase (m : FiniteMap κ ν) (k k' : κ) :
    (m.erase k').get? k = if k = k' then none else m.get? k := by
  split
  · rename_i h
    subst h
    exact AList.lookup_erase k m
  · rename_i h
    exact AList.lookup_erase_ne h

@[simp]
theorem get?_insert_self (m : FiniteMap κ ν) (k : κ) (v : ν) : (m.insert k v).get? k = some v :=
  AList.lookup_insert m

@[simp]
theorem mem_insert {m : FiniteMap κ ν} {k k' : κ} {v : ν} : k ∈ m.insert k' v ↔ k = k' ∨ k ∈ m :=
  AList.mem_insert m

@[simp]
theorem mem_erase {m : FiniteMap κ ν} {k k' : κ} : k ∈ m.erase k' ↔ k ≠ k' ∧ k ∈ m :=
  AList.mem_erase

theorem isSome_get? {m : FiniteMap κ ν} {k : κ} : (m.get? k).isSome ↔ k ∈ m :=
  AList.lookup_isSome

theorem get?_eq_none {m : FiniteMap κ ν} {k : κ} : m.get? k = none ↔ k ∉ m :=
  AList.lookup_eq_none

/-- Every key present has a value. -/
theorem get?_of_mem {m : FiniteMap κ ν} {k : κ} (h : k ∈ m) : ∃ v, m.get? k = some v :=
  Option.isSome_iff_exists.mp (isSome_get?.mpr h)

theorem mem_of_get? {m : FiniteMap κ ν} {k : κ} {v : ν} (h : m.get? k = some v) : k ∈ m :=
  isSome_get?.mp (by simp [h])

theorem get?_of_mem_entries {m : FiniteMap κ ν} {e : Σ _ : κ, ν} (h : e ∈ m.entries) :
    m.get? e.1 = some e.2 :=
  AList.mem_lookup_iff.mpr h

@[simp]
theorem get?_mapValues (f : ν → ω) (m : FiniteMap κ ν) (k : κ) :
    (mapValues f m).get? k = (m.get? k).map f := by
  obtain ⟨entries, distinct⟩ := m
  simp only [get?, AList.lookup, mapValues]
  clear distinct
  induction entries with
  | nil => rfl
  | cons e rest ih =>
      obtain ⟨k', v⟩ := e
      by_cases h : k' = k
      · subst h
        simp
      · simp [List.dlookup_cons_ne, Ne.symm h, ih]

private theorem lookup_rest {k k' : κ} {v : ν} (rest : List (Σ _ : κ, ν)) (h : k ≠ k') :
    List.dlookup k (⟨k', v⟩ :: rest) = List.dlookup k rest :=
  List.dlookup_cons_ne rest ⟨k', v⟩ h

theorem get?_filterMapValues (f : ν → Option ω) (m : FiniteMap κ ν) (k : κ) :
    (filterMapValues f m).get? k = (m.get? k).bind f := by
  obtain ⟨entries, distinct⟩ := m
  simp only [get?, AList.lookup, filterMapValues]
  induction entries with
  | nil => rfl
  | cons e rest ih =>
      obtain ⟨k', v⟩ := e
      obtain ⟨absent, restDistinct⟩ := List.nodupKeys_cons.mp distinct
      have later := ih restDistinct
      by_cases here : k = k'
      · subst here
        have gone : rest.dlookup k = none := List.dlookup_eq_none.mpr absent
        cases found : f v with
        | none => simpa [found, gone] using later
        | some w => simp [found]
      · cases found : f v with
        | none => simpa [List.filterMap_cons, found, lookup_rest _ here] using later
        | some w => simpa [List.filterMap_cons, found, lookup_rest _ here] using later

private def collect (f : ν → Except ε ω) (found : FiniteMap κ ω) (e : Σ _ : κ, ν) :
    Except ε (FiniteMap κ ω) :=
  match f e.2 with
  | .error e => .error e
  | .ok w => .ok (found.insert e.1 w)

/-- `iter().map(f).collect()` with a fallible `f`: the entries are inserted one by one. -/
def traverse (f : ν → Except ε ω) (m : FiniteMap κ ν) : Except ε (FiniteMap κ ω) :=
  m.entries.foldlM (collect f) ∅

private theorem get?_collect {f : ν → Except ε ω} {entries : List (Σ _ : κ, ν)}
    (distinct : entries.NodupKeys) {found all : FiniteMap κ ω}
    (collected : entries.foldlM (collect f) found = .ok all) (k : κ) :
    all.get? k = match entries.dlookup k with
      | none => found.get? k
      | some v => (f v).toOption := by
  induction entries generalizing found with
  | nil =>
      obtain rfl := Except.ok.inj collected
      rfl
  | cons e rest ih =>
      obtain ⟨k', v⟩ := e
      obtain ⟨absent, restDistinct⟩ := List.nodupKeys_cons.mp distinct
      cases value : f v with
      | error e => simp [collect, value, bind, Except.bind] at collected
      | ok w =>
          simp only [List.foldlM_cons, collect, value, bind, Except.bind] at collected
          rw [ih restDistinct collected]
          by_cases here : k = k'
          · subst here
            simp [List.dlookup_eq_none.mpr absent, value, Except.toOption]
          · rw [lookup_rest rest here, get?_insert, if_neg here]

theorem get?_traverse {f : ν → Except ε ω} {m : FiniteMap κ ν} {all : FiniteMap κ ω}
    (traversed : m.traverse f = .ok all) (k : κ) :
    all.get? k = (m.get? k).bind fun v => (f v).toOption := by
  rw [get?_collect m.nodupKeys traversed k]
  change _ = (m.entries.dlookup k).bind _
  cases m.entries.dlookup k with
  | none => exact get?_empty k
  | some v => rfl

/-- A traversal succeeds when `f` does on every value. -/
theorem traverse_ok_iff {f : ν → Except ε ω} {m : FiniteMap κ ν} :
    (∃ all, m.traverse f = .ok all) ↔ ∀ k v, m.get? k = some v → ∃ w, f v = .ok w := by
  have listed : (∀ k v, m.get? k = some v → ∃ w, f v = .ok w) ↔
      ∀ e ∈ m.entries, ∃ w, f e.2 = .ok w := by
    constructor
    · exact fun h e member => h e.1 e.2 (get?_of_mem_entries member)
    · exact fun h k v found => h ⟨k, v⟩ (AList.mem_lookup_iff.mp found)
  rw [listed, traverse]
  generalize (∅ : FiniteMap κ ω) = found
  induction m.entries generalizing found with
  | nil => simpa using ⟨found, rfl⟩
  | cons e rest ih =>
      cases value : f e.2 with
      | error e => simp [collect, value, bind, Except.bind]
      | ok w => simpa [collect, value, bind, Except.bind] using ih (found.insert e.1 w)

omit [DecidableEq κ] in
/-- Maps with the same members have the same keys, in some order. -/
theorem keys_perm {m : FiniteMap κ ν} {m' : FiniteMap κ ω} (same : ∀ k, k ∈ m ↔ k ∈ m') :
    m.keys.Perm m'.keys := by
  rw [List.perm_ext_iff_of_nodup m.keys_nodup m'.keys_nodup]
  intro k
  rw [← AList.mem_keys, ← AList.mem_keys, same]

/-- The values are the lookups of the keys, in the same order. -/
theorem values_eq_lookups (m : FiniteMap κ ν) (default : ν) :
    values m = m.keys.map fun k => (m.get? k).getD default := by
  simp only [values, AList.keys, List.keys, List.map_map]
  refine List.map_congr_left fun e he => ?_
  simp [get?_of_mem_entries he]

/-- A total over the values is a total over the keys. -/
theorem sum_values {K : Type*} [AddCommMonoid K] (m : FiniteMap κ K) :
    (values m).sum = ∑ k ∈ m.keys.toFinset, (m.get? k).getD 0 := by
  rw [values_eq_lookups m 0, ← List.sum_toFinset _ m.keys_nodup]

end FiniteMap

end Erez.Lib
