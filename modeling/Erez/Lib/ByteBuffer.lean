import Mathlib

/-! # Byte buffers

Reads and in-place writes at an offset. A buffer that is a concatenation of fields
is read and written field by field: `slice_right` and `patch_right` skip the fields
in front, `slice_here` and `patch_here` hit the one at the offset.
-/

namespace Erez.Lib.ByteBuffer

variable {α : Type*}

def slice (data : List α) (offset len : ℕ) : List α :=
  (data.drop offset).take len

/-- Overwrite what is at the offset; the length does not change within bounds. -/
def patch (data : List α) (offset : ℕ) (bytes : List α) : List α :=
  data.take offset ++ (bytes ++ data.drop (offset + bytes.length))

theorem length_patch {data bytes : List α} {offset : ℕ} (h : offset + bytes.length ≤ data.length) :
    (patch data offset bytes).length = data.length := by
  simp only [patch, List.length_append, List.length_take, List.length_drop]
  omega

/-- The frame of a write: bytes before and behind it stay. -/
theorem getElem?_patch_outside {data bytes : List α} {offset i : ℕ}
    (fits : offset + bytes.length ≤ data.length)
    (outside : i < offset ∨ offset + bytes.length ≤ i) :
    (patch data offset bytes)[i]? = data[i]? := by
  have front : (data.take offset).length = offset := by
    rw [List.length_take]
    omega
  rw [patch]
  cases outside with
  | inl before => rw [List.getElem?_append_left (by omega), List.getElem?_take_of_lt before]
  | inr behind =>
      rw [List.getElem?_append_right (by omega), List.getElem?_append_right (by omega),
        List.getElem?_drop, front]
      congr 1
      omega

theorem getElem?_patch_inside {data bytes : List α} {offset i : ℕ} (fits : offset ≤ data.length)
    (inside : i < bytes.length) : (patch data offset bytes)[offset + i]? = bytes[i]? := by
  have front : (data.take offset).length = offset := by
    rw [List.length_take]
    omega
  rw [patch, List.getElem?_append_right (by omega), front, Nat.add_sub_cancel_left,
    List.getElem?_append_left inside]

/-- Read a fixed number of bytes, if they are there. -/
def load (data : List α) (offset len : ℕ) : Option (Vector α len) :=
  if h : offset + len ≤ data.length then
    some ⟨(slice data offset len).toArray, by simp [slice]; omega⟩
  else none

theorem load_eq_some {data : List α} {offset len : ℕ} {bytes : Vector α len} :
    load data offset len = some bytes ↔
      offset + len ≤ data.length ∧ bytes.toList = slice data offset len := by
  unfold load
  split
  · rename_i inside
    constructor
    · intro h
      obtain rfl := Option.some.inj h
      exact ⟨inside, rfl⟩
    · rintro ⟨-, same⟩
      rw [Option.some.injEq, ← Vector.toList_inj, same]
      rfl
  · simp_all

theorem exists_load {data : List α} (offset len : ℕ) (h : offset + len ≤ data.length) :
    ∃ bytes, load data offset len = some bytes ∧ bytes.toList = slice data offset len := by
  refine ⟨_, dif_pos h, rfl⟩

theorem slice_right {front back : List α} {offset : ℕ} (h : front.length ≤ offset) (len : ℕ) :
    slice (front ++ back) offset len = slice back (offset - front.length) len := by
  rw [slice, List.drop_append, List.drop_eq_nil_of_le h, List.nil_append, slice]

theorem slice_here {front back : List α} {len : ℕ} (h : front.length = len) :
    slice (front ++ back) 0 len = front := by
  rw [slice, List.drop_zero, ← h, List.take_left]

theorem patch_right {front back : List α} {offset : ℕ} (h : front.length ≤ offset)
    (bytes : List α) :
    patch (front ++ back) offset bytes = front ++ patch back (offset - front.length) bytes := by
  have later : front.length ≤ offset + bytes.length := by omega
  have shift : offset + bytes.length - front.length = offset - front.length + bytes.length := by
    omega
  rw [patch, patch, List.take_append, List.drop_append, List.take_of_length_le h,
    List.drop_eq_nil_of_le later, List.nil_append, List.append_assoc, shift]

theorem patch_here {front back bytes : List α} (h : front.length = bytes.length) :
    patch (front ++ back) 0 bytes = bytes ++ back := by
  rw [patch, List.take_zero, List.nil_append, Nat.zero_add, ← h, List.drop_left]

theorem take_patch_before {data bytes : List α} {offset n : ℕ}
    (fits : offset + bytes.length ≤ data.length) (before : n ≤ offset) :
    (patch data offset bytes).take n = data.take n := by
  rw [patch, List.take_append_of_le_length (by rw [List.length_take]; omega), List.take_take,
    min_eq_left before]

theorem drop_patch_behind {data bytes : List α} {offset n : ℕ}
    (fits : offset + bytes.length ≤ data.length) (behind : offset + bytes.length ≤ n) :
    (patch data offset bytes).drop n = data.drop n := by
  apply List.ext_getElem?
  intro i
  rw [List.getElem?_drop, List.getElem?_drop, getElem?_patch_outside fits (.inr (by omega))]

/-- A read before or behind a write does not see it. -/
theorem load_patch_outside {data bytes : List α} {offset start len : ℕ}
    (fits : offset + bytes.length ≤ data.length)
    (outside : start + len ≤ offset ∨ offset + bytes.length ≤ start) :
    load (patch data offset bytes) start len = load data start len := by
  have same : slice (patch data offset bytes) start len = slice data start len := by
    rcases outside with before | behind
    · rw [slice, slice, List.take_drop, List.take_drop, take_patch_before fits before]
    · rw [slice, slice, drop_patch_behind fits behind]
  apply Option.ext
  intro loaded
  rw [load_eq_some, load_eq_some, length_patch fits, same]

/-- Whatever the write overlaps, what is left of the buffer from there on is the
    bytes written and the untouched rest. -/
theorem drop_patch {data : List α} {offset : ℕ} (h : offset ≤ data.length) (bytes : List α) :
    (patch data offset bytes).drop offset = bytes ++ data.drop (offset + bytes.length) := by
  rw [patch, List.drop_append, List.drop_eq_nil_of_le (List.length_take_le _ _), List.nil_append,
    List.length_take, min_eq_left h, Nat.sub_self, List.drop_zero]

end Erez.Lib.ByteBuffer
