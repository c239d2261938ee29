import Mathlib

/-! # One's-complement sums of 16-bit words

Addition with end-around carry is addition modulo 65535 with two zeros, `0` and
`0xFFFF`. A sum is only the first of them when every word is zero, so the
complement of a sum with a word that is not zero has one representation, and
knowing it modulo 65535 is knowing it. Swapping the bytes multiplies by 256, which
is why hosts of either byte order may compute such sums in place.
-/

namespace Erez.Lib.OnesComplement

/-- Addition with end-around carry. -/
def add (a b : UInt16) : UInt16 :=
  let sum := a.toNat + b.toNat
  (sum % 65536 + sum / 65536).toUInt16

def sum (words : List UInt16) : UInt16 :=
  words.foldl add 0

/-- The checksum of a list of words: the complement of their sum. -/
def checksum (words : List UInt16) : UInt16 :=
  ~~~ sum words

def swap (word : UInt16) : UInt16 :=
  (word.toNat % 256 * 256 + word.toNat / 256).toUInt16

theorem toNat_add (a b : UInt16) :
    (add a b).toNat = (a.toNat + b.toNat) % 65536 + (a.toNat + b.toNat) / 65536 := by
  have ha := a.toNat_lt
  have hb := b.toNat_lt
  simp only [add, Nat.toUInt16, UInt16.toNat_ofNat']
  omega

theorem add_modEq (a b : UInt16) : (add a b).toNat ≡ a.toNat + b.toNat [MOD 65535] := by
  rw [toNat_add, Nat.ModEq]
  omega

theorem add_eq_zero {a b : UInt16} : add a b = 0 ↔ a = 0 ∧ b = 0 := by
  rw [← UInt16.toNat_inj, ← UInt16.toNat_inj, ← UInt16.toNat_inj, toNat_add, UInt16.toNat_zero]
  omega

private theorem foldl_modEq (words : List UInt16) (start : UInt16) :
    (words.foldl add start).toNat ≡ start.toNat + (words.map UInt16.toNat).sum [MOD 65535] := by
  induction words generalizing start with
  | nil => rfl
  | cons word rest ih =>
      rw [List.foldl_cons, List.map_cons, List.sum_cons, ← Nat.add_assoc]
      exact (ih (add start word)).trans ((add_modEq start word).add_right _)

theorem sum_modEq (words : List UInt16) :
    (sum words).toNat ≡ (words.map UInt16.toNat).sum [MOD 65535] := by
  simpa [sum] using foldl_modEq words 0

private theorem foldl_eq_zero {words : List UInt16} {start : UInt16} :
    words.foldl add start = 0 ↔ start = 0 ∧ ∀ word ∈ words, word = 0 := by
  induction words generalizing start with
  | nil => simp
  | cons word rest ih =>
      rw [List.foldl_cons, ih, add_eq_zero, List.forall_mem_cons, and_assoc]

theorem sum_eq_zero {words : List UInt16} : sum words = 0 ↔ ∀ word ∈ words, word = 0 := by
  simp [sum, foldl_eq_zero]

theorem toNat_not (word : UInt16) : (~~~ word).toNat = 65535 - word.toNat := by
  rw [UInt16.toNat_not]
  rfl

/-- A checksum and its words sum to zero. -/
theorem checksum_modEq (words : List UInt16) :
    (checksum words).toNat + (words.map UInt16.toNat).sum ≡ 0 [MOD 65535] := by
  have total := sum_modEq words
  have bound := (sum words).toNat_lt
  rw [checksum, toNat_not]
  simp only [Nat.ModEq] at total ⊢
  omega

theorem checksum_ne {words : List UInt16} (some : ∃ word ∈ words, word ≠ 0) :
    (checksum words).toNat ≠ 65535 := by
  intro full
  have bound := (sum words).toNat_lt
  rw [checksum, toNat_not] at full
  have zero : sum words = 0 := UInt16.toNat_inj.mp (by rw [UInt16.toNat_zero]; omega)
  obtain ⟨word, member, nonzero⟩ := some
  exact nonzero (sum_eq_zero.mp zero word member)

/-- The update law. Taking `amount` off the words and adding it to the checksum gives
    the checksum of the new words, in whatever way the addition carries, as long as
    it does not end at `0xFFFF`. -/
theorem eq_checksum {words words' : List UInt16} {amount : ℕ} {updated : UInt16}
    (less : (words.map UInt16.toNat).sum = (words'.map UInt16.toNat).sum + amount)
    (some : ∃ word ∈ words', word ≠ 0)
    (added : updated.toNat ≡ (checksum words).toNat + amount [MOD 65535])
    (canonical : updated.toNat ≠ 65535) : updated = checksum words' := by
  have before := checksum_modEq words
  have after := checksum_modEq words'
  have other := checksum_ne some
  have hu := updated.toNat_lt
  have hc := (checksum words').toNat_lt
  apply UInt16.toNat_inj.mp
  simp only [Nat.ModEq] at before after added
  omega

/-! ## Byte order -/

theorem toNat_swap (word : UInt16) :
    (swap word).toNat = word.toNat % 256 * 256 + word.toNat / 256 := by
  have bound := word.toNat_lt
  simp only [swap, Nat.toUInt16, UInt16.toNat_ofNat']
  omega

theorem swap_modEq (word : UInt16) : (swap word).toNat ≡ 256 * word.toNat [MOD 65535] := by
  have bound := word.toNat_lt
  rw [toNat_swap, Nat.ModEq]
  omega

theorem swap_eq_full {word : UInt16} : (swap word).toNat = 65535 ↔ word.toNat = 65535 := by
  have bound := word.toNat_lt
  rw [toNat_swap]
  omega

end Erez.Lib.OnesComplement
