import Mathlib

/-! # Largest-remainder rounding

Items with an exact share are rounded down, and the units lost to rounding are
given back one each to the items at the front of a list. How the list is ordered
does not matter for the total; it decides who gets the units.
-/

namespace Erez.Lib.LargestRemainder

variable {α K : Type*} [Field K] [LinearOrder K] [IsStrictOrderedRing K]

/-- `floor` rounds `exact` down on every item. -/
def RoundsDown (floor : α → ℕ) (exact : α → K) (items : List α) : Prop :=
  ∀ item ∈ items, (floor item : K) ≤ exact item ∧ exact item < floor item + 1

omit [IsStrictOrderedRing K] in
theorem RoundsDown.tail {floor : α → ℕ} {exact : α → K} {item : α} {items : List α}
    (h : RoundsDown floor exact (item :: items)) : RoundsDown floor exact items :=
  fun other member => h other (List.mem_cons_of_mem item member)

theorem RoundsDown.sum_bounds {floor : α → ℕ} {exact : α → K} {items : List α}
    (h : RoundsDown floor exact items) :
    ((items.map floor).sum : K) ≤ (items.map exact).sum ∧
      (items.map exact).sum ≤ (items.map floor).sum + items.length := by
  induction items with
  | nil => simp
  | cons item items ih =>
      obtain ⟨below, above⟩ := h item List.mem_cons_self
      obtain ⟨lower, upper⟩ := ih h.tail
      simp only [List.map_cons, List.sum_cons, List.length_cons, Nat.cast_add, Nat.cast_one]
      constructor <;> linarith

/-- Shares that sum to within one unit of the target never over-allocate it, and
    what is left over is at most one unit per item. -/
theorem RoundsDown.leftover {floor : α → ℕ} {exact : α → K} {items : List α} {target : ℕ}
    (h : RoundsDown floor exact items) (close : |(items.map exact).sum - target| < 1) :
    (items.map floor).sum ≤ target ∧ target - (items.map floor).sum ≤ items.length := by
  obtain ⟨lower, upper⟩ := h.sum_bounds
  obtain ⟨under, beyond⟩ := abs_lt.mp close
  have fits : (items.map floor).sum < target + 1 := by
    have : ((items.map floor).sum : K) < (target : K) + 1 := by linarith
    exact_mod_cast this
  have enough : target < (items.map floor).sum + items.length + 1 := by
    have : (target : K) < ((items.map floor).sum : K) + items.length + 1 := by linarith
    exact_mod_cast this
  omega

/-- Largest remainder first, and as many units left over as the remainders amount to:
    nobody gets one who lost nothing. -/
theorem RoundsDown.lt_of_mem_take {floor : α → ℕ} {exact : α → K} {items : List α} {k : ℕ}
    (h : RoundsDown floor exact items)
    (sorted : items.Pairwise fun a b => exact b - floor b ≤ exact a - floor a)
    (left : (items.map exact).sum = (items.map floor).sum + k) {item : α}
    (front : item ∈ items.take k) : (floor item : K) < exact item := by
  obtain ⟨before, after, split⟩ := List.append_of_mem front
  have whole : items = before ++ item :: (after ++ items.drop k) := by
    rw [← List.cons_append, ← List.append_assoc, ← split, List.take_append_drop]
  have few : before.length + 1 ≤ k := by
    have size := congrArg List.length split
    simp only [List.length_take, List.length_append, List.length_cons] at size
    omega
  generalize after ++ items.drop k = rest at whole
  subst whole
  refine lt_of_le_of_ne (h item (by simp)).1 fun none => ?_
  -- Behind an item without a remainder there are none either.
  have behind : ((rest.map exact).sum : K) ≤ (rest.map floor).sum := by
    have later := (List.pairwise_cons.mp (List.pairwise_append.mp sorted).2.1).1
    rw [Nat.cast_list_sum, List.map_map]
    refine List.sum_le_sum fun other member => ?_
    have smaller := later other member
    simp only [Function.comp_apply]
    linarith
  have start : RoundsDown floor exact before := fun other member =>
    h other (List.mem_append_left _ member)
  have ahead := start.sum_bounds.2
  have bound : ((before.length : ℕ) : K) + 1 ≤ k := by exact_mod_cast few
  simp only [List.map_append, List.map_cons, List.sum_append, List.sum_cons, Nat.cast_add] at left
  linarith

/-- Raise the first `k` items. -/
def raiseFirst (k : ℕ) (raise : α → α) (items : List α) : List α :=
  (items.take k).map raise ++ items.drop k

theorem map_raiseFirst {β : Type*} (k : ℕ) (raise : α → α) (f : α → β) (items : List α)
    (kept : ∀ item ∈ items, f (raise item) = f item) :
    (raiseFirst k raise items).map f = items.map f := by
  have front : (items.take k).map (f ∘ raise) = (items.take k).map f :=
    List.map_congr_left fun item member => kept item (List.mem_of_mem_take member)
  rw [raiseFirst, List.map_append, List.map_map, front, ← List.map_append, List.take_append_drop]

theorem sum_raiseFirst {k : ℕ} {raise : α → α} (units : α → ℕ) {items : List α}
    (enough : k ≤ items.length) (one : ∀ item ∈ items, units (raise item) = units item + 1) :
    ((raiseFirst k raise items).map units).sum = (items.map units).sum + k := by
  have front : (items.take k).map (units ∘ raise) = (items.take k).map fun item => units item + 1 :=
    List.map_congr_left fun item member => one item (List.mem_of_mem_take member)
  have split : (items.map units).sum =
      ((items.take k).map units).sum + ((items.drop k).map units).sum := by
    rw [← List.sum_append, ← List.map_append, List.take_append_drop]
  rw [raiseFirst, List.map_append, List.map_map, front, List.sum_append, List.sum_map_add, split]
  simp only [List.map_const', List.sum_replicate, List.length_take, smul_eq_mul, mul_one]
  omega

theorem mem_raiseFirst {k : ℕ} {raise : α → α} {items : List α} {item : α}
    (h : item ∈ raiseFirst k raise items) : ∃ before ∈ items, item = raise before ∨ item = before := by
  rcases List.mem_append.mp h with front | back
  · obtain ⟨before, member, rfl⟩ := List.mem_map.mp front
    exact ⟨before, List.mem_of_mem_take member, .inl rfl⟩
  · exact ⟨item, List.mem_of_mem_drop back, .inr rfl⟩

theorem RoundsDown.floor_mono {floor : α → ℕ} {exact : α → K} {items : List α}
    (h : RoundsDown floor exact items) {a b : α} (ha : a ∈ items) (hb : b ∈ items)
    (le : exact b ≤ exact a) : floor b ≤ floor a := by
  have below : (floor b : K) < floor a + 1 := ((h b hb).1.trans le).trans_lt (h a ha).2
  have : floor b < floor a + 1 := by exact_mod_cast below
  omega

/-- Largest remainder first, nobody with a smaller share overtakes: where the floors
    agree, the larger share lost more and is further in front. -/
theorem RoundsDown.raiseFirst_mono {floor : α → ℕ} {exact : α → K} {items : List α} {k : ℕ}
    {raise : α → α} (h : RoundsDown floor exact items)
    (sorted : items.Pairwise fun a b => exact b - floor b ≤ exact a - floor a)
    (one : ∀ item ∈ items, floor (raise item) = floor item + 1)
    (kept : ∀ item ∈ items, exact (raise item) = exact item) {a b : α}
    (ha : a ∈ raiseFirst k raise items) (hb : b ∈ raiseFirst k raise items)
    (less : exact b < exact a) : floor b ≤ floor a := by
  cases List.mem_append.mp ha with
  | inl frontA =>
      obtain ⟨before, taken, raised⟩ := List.mem_map.mp frontA
      have member := List.mem_of_mem_take taken
      obtain ⟨other, listed, change⟩ := mem_raiseFirst hb
      have size : floor a = floor before + 1 := by rw [← raised, one before member]
      have order : floor other ≤ floor before := by
        apply h.floor_mono member listed
        cases change with
        | inl up =>
            rw [← raised, up, kept other listed, kept before member] at less
            exact less.le
        | inr same =>
            rw [← raised, same, kept before member] at less
            exact less.le
      cases change with
      | inl up =>
          have := one other listed
          rw [up, size]
          omega
      | inr same =>
          rw [same, size]
          omega
  | inr backA =>
      have memberA := List.mem_of_mem_drop backA
      cases List.mem_append.mp hb with
      | inr backB => exact h.floor_mono memberA (List.mem_of_mem_drop backB) less.le
      | inl frontB =>
          obtain ⟨before, taken, raised⟩ := List.mem_map.mp frontB
          have member := List.mem_of_mem_take taken
          rw [← List.take_append_drop k items] at sorted
          have remainders := (List.pairwise_append.mp sorted).2.2 before taken a backA
          rw [← raised, kept before member] at less
          have gap : (floor before : K) < floor a := by linarith
          rw [← raised, one before member]
          exact_mod_cast gap

end Erez.Lib.LargestRemainder
