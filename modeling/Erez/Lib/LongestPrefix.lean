import Erez.Lib.FiniteMap

/-! # Longest-prefix match

A trie stores one value per node, and a node is a finite word. A lookup walks
down a key and returns the value of the longest stored word that is a prefix of
it. Words over an arbitrary alphabet suffice: a bit trie is the case `α = Bool`.
-/

namespace Erez.Lib.LongestPrefix

variable {α ν : Type*} [DecidableEq α]

abbrev Trie (α ν : Type*) := FiniteMap (List α) ν

namespace Trie

/-- The value of the longest stored prefix of `key` with at most `n` letters. -/
def longestUpTo (t : Trie α ν) (key : List α) : ℕ → Option ν
  | 0 => t.get? []
  | n + 1 => (t.get? (key.take (n + 1))).or (longestUpTo t key n)

def longest (t : Trie α ν) (key : List α) : Option ν :=
  longestUpTo t key key.length

theorem longestUpTo_none {t : Trie α ν} {key : List α} {n : ℕ} :
    longestUpTo t key n = none ↔ ∀ m ≤ n, t.get? (key.take m) = none := by
  induction n with
  | zero => simp [longestUpTo]
  | succ n ih =>
      simp only [longestUpTo, Option.or_eq_none_iff, ih]
      constructor
      · rintro ⟨top, rest⟩ m hm
        rcases Nat.le_succ_iff.mp hm with h | rfl
        · exact rest m h
        · exact top
      · intro all
        exact ⟨all (n + 1) le_rfl, fun m hm => all m (Nat.le_succ_of_le hm)⟩

theorem longestUpTo_some {t : Trie α ν} {key : List α} {n : ℕ} {v : ν}
    (h : longestUpTo t key n = some v) :
    ∃ m ≤ n, t.get? (key.take m) = some v ∧
      ∀ l, m < l → l ≤ n → t.get? (key.take l) = none := by
  induction n with
  | zero => exact ⟨0, le_rfl, by simpa [longestUpTo] using h, fun l hl hl' => by omega⟩
  | succ n ih =>
      simp only [longestUpTo, Option.or_eq_some_iff] at h
      rcases h with top | ⟨absent, deeper⟩
      · exact ⟨n + 1, le_rfl, top, fun l hl hl' => by omega⟩
      · obtain ⟨m, hm, found, above⟩ := ih deeper
        refine ⟨m, Nat.le_succ_of_le hm, found, fun l hl hl' => ?_⟩
        rcases Nat.le_succ_iff.mp hl' with h | rfl
        · exact above l hl h
        · exact absent

omit [DecidableEq α] in
private theorem take_length_of_isPrefix {p key : List α} (h : p <+: key) : key.take p.length = p :=
  (List.prefix_iff_eq_take.mp h).symm

theorem longest_eq_none {t : Trie α ν} {key : List α} :
    t.longest key = none ↔ ∀ p, p <+: key → t.get? p = none := by
  rw [longest, longestUpTo_none]
  constructor
  · intro h p hp
    simpa only [take_length_of_isPrefix hp] using h p.length hp.length_le
  · intro h m _
    exact h _ (List.take_prefix m key)

/-- A hit returns the value of a stored prefix, and no longer one is stored. -/
theorem longest_eq_some {t : Trie α ν} {key : List α} {v : ν} (h : t.longest key = some v) :
    ∃ p, p <+: key ∧ t.get? p = some v ∧
      ∀ q, q <+: key → q ∈ t → q.length ≤ p.length := by
  obtain ⟨m, hm, found, above⟩ := longestUpTo_some h
  refine ⟨key.take m, List.take_prefix m key, found, fun q hq stored => ?_⟩
  by_contra longer
  have len : (key.take m).length = m := List.length_take_of_le hm
  have absent := above q.length (by omega) hq.length_le
  rw [take_length_of_isPrefix hq] at absent
  exact FiniteMap.get?_eq_none.mp absent stored

section Installed

variable {κ : Type*} (node : κ → List α) (entry : κ → ν)

/-- The trie after storing the entry of each key at its node, in order. -/
def install (keys : List κ) : Trie α ν :=
  keys.foldl (fun t k => t.insert (node k) (entry k)) ∅

theorem install_nil : install node entry [] = ∅ := rfl

theorem install_concat (keys : List κ) (k : κ) :
    install node entry (keys ++ [k]) = (install node entry keys).insert (node k) (entry k) := by
  simp [install]

/-- A stored value belongs to a key installed at that node. -/
theorem lookup_install {keys : List κ} {p : List α} {v : ν}
    (h : (install node entry keys).get? p = some v) :
    ∃ k ∈ keys, node k = p ∧ entry k = v := by
  induction keys using List.reverseRecOn with
  | nil => simp [install_nil] at h
  | append_singleton keys k ih =>
      rw [install_concat, FiniteMap.get?_insert] at h
      split at h
      · rename_i here
        exact ⟨k, by simp, here.symm, Option.some.inj h⟩
      · obtain ⟨k', member, atNode, value⟩ := ih h
        exact ⟨k', List.mem_append_left _ member, atNode, value⟩

theorem mem_install {keys : List κ} {p : List α} :
    p ∈ install node entry keys ↔ ∃ k ∈ keys, node k = p := by
  induction keys using List.reverseRecOn with
  | nil => simp [install_nil]
  | append_singleton keys k ih =>
      rw [install_concat, FiniteMap.mem_insert, ih]
      constructor
      · rintro (rfl | ⟨k', member, atNode⟩)
        · exact ⟨k, by simp, rfl⟩
        · exact ⟨k', List.mem_append_left _ member, atNode⟩
      · rintro ⟨k', member, atNode⟩
        rcases List.mem_append.mp member with earlier | last
        · exact .inr ⟨k', earlier, atNode⟩
        · rw [List.mem_singleton.mp last] at atNode
          exact .inl atNode.symm

theorem longest_install_none {keys : List κ} {key : List α} :
    (install node entry keys).longest key = none ↔ ∀ k ∈ keys, ¬ node k <+: key := by
  rw [longest_eq_none]
  constructor
  · intro h k member hp
    have absent := FiniteMap.get?_eq_none.mp (h (node k) hp)
    exact absent ((mem_install node entry).mpr ⟨k, member, rfl⟩)
  · intro h p hp
    refine FiniteMap.get?_eq_none.mpr fun stored => ?_
    obtain ⟨k, member, rfl⟩ := (mem_install node entry).mp stored
    exact h k member hp

/-- A hit is the entry of an installed key that covers the searched word, and no
    installed key covers it with a longer node. -/
theorem longest_install_some {keys : List κ} {key : List α} {v : ν}
    (h : (install node entry keys).longest key = some v) :
    ∃ k ∈ keys, node k <+: key ∧ entry k = v ∧
      ∀ k' ∈ keys, node k' <+: key → (node k').length ≤ (node k).length := by
  obtain ⟨p, hp, found, maximal⟩ := longest_eq_some h
  obtain ⟨k, member, rfl, value⟩ := lookup_install node entry found
  refine ⟨k, member, hp, value, fun k' member' hp' => ?_⟩
  exact maximal (node k') hp' ((mem_install node entry).mpr ⟨k', member', rfl⟩)

/-- When the last key covers the searched word and no other key covers it with a
    longer node, the lookup returns the last key's entry. -/
theorem longest_install_last {keys : List κ} {k : κ} {key : List α} (hp : node k <+: key)
    (maximal : ∀ k' ∈ keys, node k' <+: key → (node k').length ≤ (node k).length) :
    (install node entry (keys ++ [k])).longest key = some (entry k) := by
  have stored : (install node entry (keys ++ [k])).get? (node k) = some (entry k) := by
    rw [install_concat]
    exact FiniteMap.get?_insert_self _ _ _
  cases found : (install node entry (keys ++ [k])).longest key with
  | none =>
      rw [longest_eq_none] at found
      rw [found _ hp] at stored
      exact absurd stored (by simp)
  | some v =>
      obtain ⟨p, hp', value, deepest⟩ := longest_eq_some found
      have reached := deepest (node k) hp (FiniteMap.mem_of_get? stored)
      obtain ⟨k', member, rfl, -⟩ := lookup_install node entry value
      have bounded : (node k').length ≤ (node k).length := by
        rcases List.mem_append.mp member with earlier | last
        · exact maximal k' earlier hp'
        · rw [List.mem_singleton.mp last]
      have same : node k' = node k :=
        (List.prefix_of_prefix_length_le hp' hp bounded).eq_of_length (by omega)
      rw [same, stored] at value
      exact value.symm

end Installed

end Trie

end Erez.Lib.LongestPrefix
