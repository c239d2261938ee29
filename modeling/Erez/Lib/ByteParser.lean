import Mathlib

/-! # Parsers of byte strings

A parser returns a value and the bytes it leaves, or fails: with an error of its
own, or because a length it read asks for bytes that are not there. `Reads` is
what a round trip needs of a parser: on an encoding it returns the value and
leaves whatever follows. It is closed under the operations, so the law of a format
is assembled from the laws of its fields.
-/

namespace Erez.Lib

inductive Failure (ε : Type) where
  | incomplete (needed : ℕ)
  | error (error : ε)
  deriving DecidableEq

abbrev ByteParser (ε α : Type) := StateT (List UInt8) (Except (Failure ε)) α

namespace ByteParser

variable {ε δ α β : Type}

def fail (error : ε) : ByteParser ε α :=
  fun _ => .error (.error error)

/-- The first bytes of the buffer. -/
def take (eof : ε) (n : ℕ) : ByteParser ε (List UInt8) :=
  fun buf =>
    if n ≤ buf.length then .ok (buf.take n, buf.drop n) else .error (.error eof)

def mapErr (f : ε → δ) (p : ByteParser ε α) : ByteParser δ α :=
  fun buf =>
    match p buf with
    | .ok result => .ok result
    | .error (.incomplete needed) => .error (.incomplete needed)
    | .error (.error error) => .error (.error (f error))

/-- Split off as many bytes as a length in front of them says. -/
def lengthData (len : ByteParser ε ℕ) : ByteParser ε (List UInt8) :=
  fun buf =>
    match len buf with
    | .error failure => .error failure
    | .ok (n, rest) =>
        if n ≤ rest.length then .ok (rest.take n, rest.drop n)
        else .error (.incomplete (n - rest.length))

/-- Parse a buffer of its own; what it leaves of that buffer is dropped. -/
def within (inner : List UInt8) (p : ByteParser ε α) : ByteParser ε α :=
  fun buf =>
    match p inner with
    | .ok (value, _) => .ok (value, buf)
    | .error failure => .error failure

/-- The loop of `tillEmpty`, bounded by a number of rounds. -/
def rounds (p : ByteParser ε α) : ℕ → List UInt8 → Except (Failure ε) (List α)
  | _, [] => .ok []
  | 0, _ :: _ => .ok []
  | n + 1, byte :: buf =>
      match p (byte :: buf) with
      | .error failure => .error failure
      | .ok (value, rest) => (value :: ·) <$> rounds p n rest

/-- Repeat a parser while the buffer has bytes. One round a byte is enough for a
    parser that consumes: see `tillEmpty_of_ok`. -/
def tillEmpty (p : ByteParser ε α) : ByteParser ε (List α) :=
  fun buf => (·, []) <$> rounds p buf.length buf

/-! ## Numbers in network order -/

def toBigEndian : ℕ → ℕ → List UInt8
  | 0, _ => []
  | width + 1, n => toBigEndian width (n / 256) ++ [n.toUInt8]

def ofBigEndian (bytes : List UInt8) : ℕ :=
  bytes.foldl (fun n byte => n * 256 + byte.toNat) 0

@[simp]
theorem length_toBigEndian (width n : ℕ) : (toBigEndian width n).length = width := by
  induction width generalizing n with
  | zero => rfl
  | succ width ih => rw [toBigEndian, List.length_append, ih, List.length_singleton]

theorem ofBigEndian_toBigEndian {width n : ℕ} (h : n < 256 ^ width) :
    ofBigEndian (toBigEndian width n) = n := by
  induction width generalizing n with
  | zero =>
      obtain rfl : n = 0 := by simpa using h
      rfl
  | succ width ih =>
      have high : n / 256 < 256 ^ width := by
        rw [pow_succ] at h
        exact Nat.div_lt_of_lt_mul (by omega)
      have low : (n.toUInt8).toNat = n % 256 := UInt8.toNat_ofNat'
      rw [toBigEndian, ofBigEndian, List.foldl_append]
      change ofBigEndian (toBigEndian width (n / 256)) * 256 + (n.toUInt8).toNat = n
      rw [ih high, low]
      omega

def be (eof : ε) (width : ℕ) : ByteParser ε ℕ :=
  ofBigEndian <$> take eof width

def beU8 (eof : ε) : ByteParser ε UInt8 :=
  Nat.toUInt8 <$> be eof 1

def beU16 (eof : ε) : ByteParser ε UInt16 :=
  Nat.toUInt16 <$> be eof 2

def beU32 (eof : ε) : ByteParser ε UInt32 :=
  Nat.toUInt32 <$> be eof 4

/-! ## A length octet -/

def lengthU8 (eof : ε) : ByteParser ε (List UInt8) :=
  lengthData (UInt8.toNat <$> beU8 eof)

/-- As many bytes as a count in front of them says. -/
def countU8 (eof : ε) : ByteParser ε (List UInt8) := do
  let count ← beU8 eof
  take eof count.toNat

/-- All that is left. -/
def remaining : ByteParser ε (List UInt8) :=
  fun buf => .ok (buf, [])

/-- A value that is converted, or fails with an error for it. -/
def mapRes (p : ByteParser ε α) (f : α → Option β) (error : α → ε) : ByteParser ε β := do
  let a ← p
  match f a with
  | some b => pure b
  | none => fail (error a)

/-! ## What a parser reads -/

theorem bind_of_ok {p : ByteParser ε α} {buf rest : List UInt8} {a : α} (h : p buf = .ok (a, rest))
    (f : α → ByteParser ε β) : (p >>= f) buf = f a rest := by
  change (p buf >>= fun result => f result.1 result.2) = _
  rw [h]
  rfl

theorem bind_of_error {p : ByteParser ε α} {buf : List UInt8} {failure : Failure ε}
    (h : p buf = .error failure) (f : α → ByteParser ε β) : (p >>= f) buf = .error failure := by
  change (p buf >>= fun result => f result.1 result.2) = _
  rw [h]
  rfl

theorem ok_of_bind {p : ByteParser ε α} {f : α → ByteParser ε β} {buf rest : List UInt8} {b : β}
    (h : (p >>= f) buf = .ok (b, rest)) :
    ∃ a left, p buf = .ok (a, left) ∧ f a left = .ok (b, rest) := by
  change (p buf >>= fun result => f result.1 result.2) = _ at h
  cases parsed : p buf with
  | error failure =>
      rw [parsed] at h
      cases h
  | ok result =>
      rw [parsed] at h
      exact ⟨result.1, result.2, rfl, h⟩

theorem ok_of_map {p : ByteParser ε α} {f : α → β} {buf rest : List UInt8} {b : β}
    (h : (f <$> p) buf = .ok (b, rest)) : ∃ a, p buf = .ok (a, rest) ∧ f a = b := by
  change (p buf >>= fun result => Except.ok (f result.1, result.2)) = _ at h
  cases parsed : p buf with
  | error failure =>
      rw [parsed] at h
      cases h
  | ok result =>
      rw [parsed] at h
      obtain ⟨rfl, rfl⟩ := Prod.mk.inj (Except.ok.inj h)
      exact ⟨result.1, rfl, rfl⟩

theorem map_of_ok {p : ByteParser ε α} {buf rest : List UInt8} {a : α} (h : p buf = .ok (a, rest))
    (f : α → β) : (f <$> p) buf = .ok (f a, rest) :=
  bind_of_ok h fun a => pure (f a)

theorem mapErr_of_ok {p : ByteParser ε α} {buf : List UInt8} {result : α × List UInt8}
    (h : p buf = .ok result) (f : ε → δ) : p.mapErr f buf = .ok result := by
  rw [mapErr, h]

theorem ok_of_mapErr {p : ByteParser ε α} {f : ε → δ} {buf : List UInt8} {result : α × List UInt8}
    (h : p.mapErr f buf = .ok result) : p buf = .ok result := by
  unfold mapErr at h
  split at h
  · rename_i same parsed
    rw [parsed, Except.ok.inj h]
  · cases h
  · cases h

theorem ok_of_within {p : ByteParser ε α} {inner buf rest : List UInt8} {a : α}
    (h : within inner p buf = .ok (a, rest)) : ∃ left, p inner = .ok (a, left) := by
  unfold within at h
  split at h
  · rename_i value left parsed
    obtain ⟨rfl, -⟩ := Prod.mk.inj (Except.ok.inj h)
    exact ⟨left, parsed⟩
  · cases h

theorem rest_of_within {p : ByteParser ε α} {inner buf rest : List UInt8} {a : α}
    (h : within inner p buf = .ok (a, rest)) : buf = rest := by
  unfold within at h
  split at h
  · exact (Prod.mk.inj (Except.ok.inj h)).2
  · cases h

/-- The parser returns the value on its encoding, whatever follows. -/
def Reads (p : ByteParser ε α) (bytes : List UInt8) (value : α) : Prop :=
  ∀ rest, p (bytes ++ rest) = .ok (value, rest)

namespace Reads

theorem pure (value : α) : Reads (Pure.pure value : ByteParser ε α) [] value :=
  fun _ => rfl

theorem then_eq {p : ByteParser ε α} {front : List UInt8} {a : α} (h : Reads p front a)
    (f : α → ByteParser ε β) (buf : List UInt8) : (p >>= f) (front ++ buf) = f a buf :=
  bind_of_ok (h buf) f

theorem bind {p : ByteParser ε α} {f : α → ByteParser ε β} {front back : List UInt8} {a : α} {b : β}
    (first : Reads p front a) (second : Reads (f a) back b) :
    Reads (p >>= f) (front ++ back) b := by
  intro rest
  rw [List.append_assoc, first.then_eq]
  exact second rest

/-- What comes after the last byte. -/
theorem bind_nil {p : ByteParser ε α} {f : α → ByteParser ε β} {bytes : List UInt8} {a : α} {b : β}
    (first : Reads p bytes a) (second : Reads (f a) [] b) : Reads (p >>= f) bytes b := by
  rw [← List.append_nil bytes]
  exact first.bind second

theorem map {p : ByteParser ε α} {bytes : List UInt8} {a : α} (f : α → β) (h : Reads p bytes a) :
    Reads (f <$> p) bytes (f a) := by
  intro rest
  change (p (bytes ++ rest) >>= fun result => Except.ok (f result.1, result.2)) = _
  rw [h]
  rfl

theorem mapErr {p : ByteParser ε α} {bytes : List UInt8} {a : α} (f : ε → δ) (h : Reads p bytes a) :
    Reads (p.mapErr f) bytes a := by
  intro rest
  rw [ByteParser.mapErr, h]

theorem take {bytes : List UInt8} {n : ℕ} (eof : ε) (h : bytes.length = n) :
    Reads (take eof n) bytes bytes := by
  intro rest
  have enough : n ≤ (bytes ++ rest).length := by
    rw [List.length_append]
    omega
  rw [ByteParser.take, if_pos enough, ← h, List.take_left, List.drop_left]

theorem be (eof : ε) {width n : ℕ} (h : n < 256 ^ width) :
    Reads (be eof width) (toBigEndian width n) n := by
  have read := (take eof (length_toBigEndian width n)).map ofBigEndian
  rwa [ofBigEndian_toBigEndian h] at read

theorem beU8 (eof : ε) (n : UInt8) : Reads (beU8 eof) [n] n := by
  have read := (be eof (show n.toNat < 256 ^ 1 from n.toNat_lt)).map Nat.toUInt8
  rwa [toBigEndian, toBigEndian, List.nil_append, Nat.toUInt8_eq, UInt8.ofNat_toNat] at read

theorem beU8_bind {f : UInt8 → ByteParser ε β} {bytes : List UInt8} {b : β} (eof : ε) (n : UInt8)
    (second : Reads (f n) bytes b) : Reads (ByteParser.beU8 eof >>= f) (n :: bytes) b :=
  (beU8 eof n).bind second

theorem beU16 (eof : ε) (n : UInt16) : Reads (beU16 eof) (toBigEndian 2 n.toNat) n := by
  have read := (be eof (show n.toNat < 256 ^ 2 from n.toNat_lt)).map Nat.toUInt16
  rwa [Nat.toUInt16_eq, UInt16.ofNat_toNat] at read

theorem beU32 (eof : ε) (n : UInt32) : Reads (beU32 eof) (toBigEndian 4 n.toNat) n := by
  have read := (be eof (show n.toNat < 256 ^ 4 from n.toNat_lt)).map Nat.toUInt32
  rwa [Nat.toUInt32_eq, UInt32.ofNat_toNat] at read

theorem lengthData {len : ByteParser ε ℕ} {field body : List UInt8}
    (h : Reads len field body.length) : Reads (lengthData len) (field ++ body) body := by
  intro rest
  have enough : body.length ≤ (body ++ rest).length := by simp
  rw [ByteParser.lengthData, List.append_assoc, h]
  change (if _ then _ else _) = _
  rw [if_pos enough, List.take_left, List.drop_left]

theorem lengthU8 (eof : ε) {body : List UInt8} (short : body.length < 256) :
    Reads (lengthU8 eof) (body.length.toUInt8 :: body) body := by
  have read := (beU8 eof body.length.toUInt8).map UInt8.toNat
  have same : (body.length.toUInt8).toNat = body.length := UInt8.toNat_ofNat_of_lt' short
  rw [same] at read
  exact lengthData read

theorem countU8 (eof : ε) {body : List UInt8} (short : body.length < 256) :
    Reads (countU8 eof) (body.length.toUInt8 :: body) body := by
  have same : (body.length.toUInt8).toNat = body.length := UInt8.toNat_ofNat_of_lt' short
  exact beU8_bind eof _ (take eof same.symm)

theorem mapRes {p : ByteParser ε α} {f : α → Option β} {bytes : List UInt8} {a : α} {b : β}
    (error : α → ε) (h : Reads p bytes a) (named : f a = some b) :
    Reads (ByteParser.mapRes p f error) bytes b := by
  refine h.bind_nil ?_
  rw [named]
  exact .pure b

theorem within {p : ByteParser ε α} {inner leftover : List UInt8} {a : α}
    (h : p inner = .ok (a, leftover)) : Reads (within inner p) [] a := by
  intro rest
  rw [ByteParser.within, h]
  rfl

/-- A record of a fixed size. -/
theorem take_within {p : ByteParser ε α} {bytes : List UInt8} {a : α} {n : ℕ} (eof : ε)
    (size : bytes.length = n) (h : Reads p bytes a) :
    Reads (ByteParser.take eof n >>= fun inner => ByteParser.within inner p) bytes a := by
  have whole := h []
  rw [List.append_nil] at whole
  exact (take eof size).bind_nil (within whole)

/-- A record behind its length. -/
theorem lengthU8_within {p : ByteParser ε α} {body leftover : List UInt8} {a : α} (eof : ε)
    (short : body.length < 256) (h : p body = .ok (a, leftover)) :
    Reads (ByteParser.lengthU8 eof >>= fun inner => ByteParser.within inner p)
      (body.length.toUInt8 :: body) a :=
  (lengthU8 eof short).bind_nil (within h)

end Reads

theorem lengthU8_cons (eof : ε) (n : UInt8) (buf : List UInt8) :
    lengthU8 eof (n :: buf) =
      if n.toNat ≤ buf.length then .ok (buf.take n.toNat, buf.drop n.toNat)
      else .error (.incomplete (n.toNat - buf.length)) := by
  have octet : (UInt8.toNat <$> beU8 eof) (n :: buf) = .ok (n.toNat, buf) :=
    (Reads.beU8 eof n).map UInt8.toNat buf
  rw [lengthU8, lengthData, octet]

/-! ## What a parser consumes -/

/-- The parser takes at least `k` bytes whenever it succeeds. -/
def Consumes (k : ℕ) (p : ByteParser ε α) : Prop :=
  ∀ buf value rest, p buf = .ok (value, rest) → rest.length + k ≤ buf.length

namespace Consumes

theorem pure (value : α) : Consumes 0 (Pure.pure value : ByteParser ε α) := by
  intro buf other rest h
  obtain ⟨-, rfl⟩ := Prod.mk.inj (Except.ok.inj h)
  exact le_rfl

theorem fail (k : ℕ) (error : ε) : Consumes k (fail error : ByteParser ε α) := by
  intro buf value rest h
  cases h

theorem take (eof : ε) (n : ℕ) : Consumes n (take eof n) := by
  intro buf bytes rest h
  unfold ByteParser.take at h
  split at h
  · obtain ⟨-, rfl⟩ := Prod.mk.inj (Except.ok.inj h)
    rw [List.length_drop]
    omega
  · cases h

theorem bind {p : ByteParser ε α} {f : α → ByteParser ε β} {j k : ℕ} (first : Consumes j p)
    (second : ∀ a, Consumes k (f a)) : Consumes (j + k) (p >>= f) := by
  intro buf value rest h
  obtain ⟨a, left, parsed, later⟩ := ok_of_bind h
  have before := first _ _ _ parsed
  have after := second a _ _ _ later
  omega

theorem map {p : ByteParser ε α} {k : ℕ} (f : α → β) (h : Consumes k p) : Consumes k (f <$> p) :=
  h.bind fun a => Consumes.pure (f a)

theorem mapErr {p : ByteParser ε α} {k : ℕ} (f : ε → δ) (h : Consumes k p) :
    Consumes k (p.mapErr f) :=
  fun buf value rest parsed => h buf value rest (ok_of_mapErr parsed)

theorem mono {p : ByteParser ε α} {j k : ℕ} (h : Consumes k p) (le : j ≤ k) : Consumes j p :=
  fun buf value rest parsed => (Nat.add_le_add_left le _).trans (h buf value rest parsed)

theorem beU8 (eof : ε) : Consumes 1 (beU8 eof) :=
  ((take eof 1).map _).map _

theorem beU16 (eof : ε) : Consumes 2 (beU16 eof) :=
  ((take eof 2).map _).map _

theorem beU32 (eof : ε) : Consumes 4 (beU32 eof) :=
  ((take eof 4).map _).map _

theorem within (inner : List UInt8) (p : ByteParser ε α) : Consumes 0 (within inner p) := by
  intro buf value rest h
  unfold ByteParser.within at h
  split at h
  · obtain ⟨-, rfl⟩ := Prod.mk.inj (Except.ok.inj h)
    exact le_rfl
  · cases h

theorem lengthU8 (eof : ε) : Consumes 1 (lengthU8 eof) := by
  intro buf bytes rest h
  unfold ByteParser.lengthU8 lengthData at h
  split at h
  · cases h
  · rename_i n left parsed
    have octet := (beU8 eof).map UInt8.toNat _ _ _ parsed
    split at h
    · obtain ⟨-, rfl⟩ := Prod.mk.inj (Except.ok.inj h)
      rw [List.length_drop]
      omega
    · cases h

theorem countU8 (eof : ε) : Consumes 1 (countU8 eof) :=
  (beU8 eof).bind fun count => (take eof count.toNat).mono (Nat.zero_le _)

theorem tillEmpty (p : ByteParser ε α) : Consumes 0 (tillEmpty p) := by
  intro buf values rest h
  unfold ByteParser.tillEmpty at h
  cases looped : rounds p buf.length buf with
  | error failure =>
      rw [looped] at h
      cases h
  | ok values =>
      rw [looped] at h
      obtain ⟨-, rfl⟩ := Prod.mk.inj (Except.ok.inj h)
      exact Nat.zero_le _

end Consumes

/-! ## Repetition -/

private theorem rounds_nil (p : ByteParser ε α) (n : ℕ) : rounds p n [] = .ok [] := by
  cases n <;> rfl

private theorem rounds_stable {p : ByteParser ε α} (progress : Consumes 1 p) {n m : ℕ}
    {buf : List UInt8} (hn : buf.length ≤ n) (hm : buf.length ≤ m) :
    rounds p n buf = rounds p m buf := by
  induction n generalizing m buf with
  | zero =>
      obtain rfl : buf = [] := List.length_eq_zero_iff.mp (by omega)
      rw [rounds_nil, rounds_nil]
  | succ n ih =>
      cases buf with
      | nil => rw [rounds_nil, rounds_nil]
      | cons byte buf =>
          obtain ⟨m, rfl⟩ : ∃ k, m = k + 1 := ⟨m - 1, by simp at hm; omega⟩
          rw [rounds, rounds]
          cases parsed : p (byte :: buf) with
          | error failure => rfl
          | ok result =>
              obtain ⟨value, rest⟩ := result
              have shorter := progress _ _ _ parsed
              rw [List.length_cons] at shorter hn hm
              have same : rounds p n rest = rounds p m rest := ih (by omega) (by omega)
              change (value :: ·) <$> rounds p n rest = (value :: ·) <$> rounds p m rest
              rw [same]

/-- One round of the loop. -/
theorem tillEmpty_of_ok {p : ByteParser ε α} (progress : Consumes 1 p) {buf rest : List UInt8}
    {value : α} (parsed : p buf = .ok (value, rest)) :
    tillEmpty p buf = (fun result => (value :: result.1, result.2)) <$> tillEmpty p rest := by
  have shorter := progress _ _ _ parsed
  cases buf with
  | nil => simp at shorter
  | cons byte buf =>
      rw [List.length_cons] at shorter
      simp only [tillEmpty, List.length_cons, rounds, parsed]
      rw [rounds_stable progress (show rest.length ≤ buf.length by omega) le_rfl]
      cases rounds p rest.length rest <;> rfl

theorem tillEmpty_of_error {p : ByteParser ε α} {byte : UInt8} {buf : List UInt8}
    {failure : Failure ε} (parsed : p (byte :: buf) = .error failure) :
    tillEmpty p (byte :: buf) = .error failure := by
  simp only [tillEmpty, List.length_cons, rounds, parsed]
  rfl

/-- The loop over a sequence of encodings reads what each of them is read as. -/
theorem tillEmpty_flatMap_map {p : ByteParser ε α} (progress : Consumes 1 p)
    {encode : β → List UInt8} {read : β → α} {values : List β}
    (h : ∀ value ∈ values, Reads p (encode value) (read value)) :
    tillEmpty p (values.flatMap encode) = .ok (values.map read, []) := by
  induction values with
  | nil => rfl
  | cons value values ih =>
      have first := h value (by simp) (values.flatMap encode)
      have later := ih fun other member => h other (by simp [member])
      rw [List.flatMap_cons, tillEmpty_of_ok progress first, later]
      rfl

/-- The loop reads back a sequence of encodings. -/
theorem tillEmpty_flatMap {p : ByteParser ε α} (progress : Consumes 1 p) {encode : α → List UInt8}
    {values : List α} (h : ∀ value ∈ values, Reads p (encode value) value) :
    tillEmpty p (values.flatMap encode) = .ok (values, []) :=
  (tillEmpty_flatMap_map progress h).trans (by rw [List.map_id'])

/-- What holds of every value the parser can return holds of the whole sequence. -/
theorem tillEmpty_forall {p : ByteParser ε α} (progress : Consumes 1 p) {Good : α → Prop}
    (good : ∀ buf value rest, p buf = .ok (value, rest) → Good value) {buf rest : List UInt8}
    {values : List α} (h : tillEmpty p buf = .ok (values, rest)) : ∀ value ∈ values, Good value := by
  induction size : buf.length using Nat.strong_induction_on generalizing buf values with
  | _ n ih =>
      cases buf with
      | nil =>
          obtain ⟨rfl, -⟩ := Prod.mk.inj (Except.ok.inj h)
          simp
      | cons byte buf =>
          cases parsed : p (byte :: buf) with
          | error failure =>
              rw [tillEmpty_of_error parsed] at h
              cases h
          | ok result =>
              obtain ⟨first, left⟩ := result
              rw [tillEmpty_of_ok progress parsed] at h
              cases looped : tillEmpty p left with
              | error failure =>
                  rw [looped] at h
                  cases h
              | ok result =>
                  obtain ⟨later, done⟩ := result
                  rw [looped] at h
                  obtain ⟨rfl, rfl⟩ := Prod.mk.inj (Except.ok.inj h)
                  have shorter := progress _ _ _ parsed
                  intro value member
                  rcases List.mem_cons.mp member with rfl | member
                  · exact good _ _ _ parsed
                  · exact ih left.length (by omega) looped rfl value member

/-! ## What a parser yields -/

/-- Every value that the parser returns is good. -/
def Yields (p : ByteParser ε α) (Good : α → Prop) : Prop :=
  ∀ buf value rest, p buf = .ok (value, rest) → Good value

namespace Yields

variable {Good : α → Prop} {Later : β → Prop}

theorem any (p : ByteParser ε α) : Yields p fun _ => True :=
  fun _ _ _ _ => trivial

theorem pure {value : α} (good : Good value) : Yields (Pure.pure value : ByteParser ε α) Good := by
  intro buf other rest h
  obtain ⟨rfl, -⟩ := Prod.mk.inj (Except.ok.inj h)
  exact good

theorem fail (error : ε) : Yields (fail error : ByteParser ε α) Good := by
  intro buf value rest h
  cases h

theorem bind {p : ByteParser ε α} {f : α → ByteParser ε β} (first : Yields p Good)
    (second : ∀ a, Good a → Yields (f a) Later) : Yields (p >>= f) Later := by
  intro buf value rest h
  obtain ⟨a, left, parsed, later⟩ := ok_of_bind h
  exact second a (first _ _ _ parsed) _ _ _ later

theorem map {p : ByteParser ε α} {f : α → β} (h : Yields p fun a => Later (f a)) :
    Yields (f <$> p) Later :=
  h.bind fun _ good => pure good

theorem within {p : ByteParser ε α} {inner : List UInt8}
    (h : ∀ value left, p inner = .ok (value, left) → Good value) :
    Yields (within inner p) Good := by
  intro buf value rest parsed
  obtain ⟨left, parsed⟩ := ok_of_within parsed
  exact h _ _ parsed

theorem take (eof : ε) (n : ℕ) : Yields (take eof n) fun bytes => bytes.length = n := by
  intro buf bytes rest h
  unfold ByteParser.take at h
  split at h
  · obtain ⟨rfl, -⟩ := Prod.mk.inj (Except.ok.inj h)
    rw [List.length_take]
    omega
  · cases h

theorem lengthU8 (eof : ε) : Yields (lengthU8 eof) fun bytes => bytes.length < 256 := by
  have octet : Yields (UInt8.toNat <$> beU8 eof) fun n => n < 256 :=
    map fun _ byte _ _ => byte.toNat_lt
  intro buf bytes rest h
  unfold ByteParser.lengthU8 lengthData at h
  split at h
  · cases h
  · rename_i n left parsed
    have small := octet _ _ _ parsed
    split at h
    · obtain ⟨rfl, -⟩ := Prod.mk.inj (Except.ok.inj h)
      rw [List.length_take]
      omega
    · cases h

theorem countU8 (eof : ε) : Yields (countU8 eof) fun bytes => bytes.length < 256 := by
  refine (any _).bind fun count _ => ?_
  intro buf bytes rest h
  rw [take eof count.toNat buf bytes rest h]
  exact count.toNat_lt

end Yields

/-- A loop over pieces of at least `k` bytes makes no more of them than fit. -/
theorem tillEmpty_length {p : ByteParser ε α} {k : ℕ} (progress : Consumes (k + 1) p)
    {buf rest : List UInt8} {values : List α} (h : tillEmpty p buf = .ok (values, rest)) :
    values.length * (k + 1) ≤ buf.length := by
  induction size : buf.length using Nat.strong_induction_on generalizing buf values with
  | _ n ih =>
      cases buf with
      | nil =>
          obtain ⟨rfl, -⟩ := Prod.mk.inj (Except.ok.inj h)
          simp
      | cons byte buf =>
          cases parsed : p (byte :: buf) with
          | error failure =>
              rw [tillEmpty_of_error parsed] at h
              cases h
          | ok result =>
              obtain ⟨first, left⟩ := result
              rw [tillEmpty_of_ok (progress.mono (Nat.le_add_left 1 k)) parsed] at h
              cases looped : tillEmpty p left with
              | error failure =>
                  rw [looped] at h
                  cases h
              | ok result =>
                  obtain ⟨later, done⟩ := result
                  rw [looped] at h
                  obtain ⟨rfl, rfl⟩ := Prod.mk.inj (Except.ok.inj h)
                  have shorter := progress _ _ _ parsed
                  have rest_ := ih left.length (by omega) looped rfl
                  change (later.length + 1) * (k + 1) ≤ n
                  rw [Nat.add_mul]
                  omega

/-! ## More bytes -/

/-- More bytes at the end are left over, and change nothing else. -/
def Settled (p : ByteParser ε α) (buf : List UInt8) : Prop :=
  ∀ more, p (buf ++ more) = (fun result => (result.1, result.2 ++ more)) <$> p buf

namespace Settled

theorem pure (value : α) (buf : List UInt8) : Settled (Pure.pure value : ByteParser ε α) buf :=
  fun _ => rfl

theorem fail (error : ε) (buf : List UInt8) : Settled (fail error : ByteParser ε α) buf :=
  fun _ => rfl

theorem take (eof : ε) {n : ℕ} {buf : List UInt8} (enough : n ≤ buf.length) :
    Settled (take eof n) buf := by
  intro more
  have still : n ≤ (buf ++ more).length := by
    rw [List.length_append]
    omega
  rw [ByteParser.take, ByteParser.take, if_pos still, if_pos enough,
    List.take_append_of_le_length enough, List.drop_append_of_le_length enough]
  rfl

theorem within (inner : List UInt8) (p : ByteParser ε α) (buf : List UInt8) :
    Settled (within inner p) buf := by
  intro more
  unfold ByteParser.within
  cases p inner <;> rfl

theorem bind {p : ByteParser ε α} {f : α → ByteParser ε β} {buf : List UInt8}
    (first : Settled p buf)
    (second : ∀ a rest, p buf = .ok (a, rest) → Settled (f a) rest) : Settled (p >>= f) buf := by
  intro more
  have extended := first more
  cases parsed : p buf with
  | error failure =>
      rw [parsed] at extended
      rw [bind_of_error extended, bind_of_error parsed]
      rfl
  | ok result =>
      obtain ⟨a, rest⟩ := result
      rw [parsed] at extended
      rw [bind_of_ok extended, bind_of_ok parsed]
      exact second a rest parsed more

theorem map {p : ByteParser ε α} {buf : List UInt8} (f : α → β) (h : Settled p buf) :
    Settled (f <$> p) buf :=
  h.bind fun a rest _ => .pure (f a) rest

theorem mapErr {p : ByteParser ε α} {buf : List UInt8} (f : ε → δ) (h : Settled p buf) :
    Settled (p.mapErr f) buf := by
  intro more
  have extended := h more
  unfold ByteParser.mapErr
  rw [extended]
  rcases p buf with (needed | error) | result <;> rfl

end Settled

theorem take_of_le (eof : ε) {n : ℕ} {buf : List UInt8} (enough : n ≤ buf.length) :
    take eof n buf = .ok (buf.take n, buf.drop n) :=
  if_pos enough

theorem beU16_of_le (eof : ε) {buf : List UInt8} (enough : 2 ≤ buf.length) :
    beU16 eof buf = .ok ((ofBigEndian (buf.take 2)).toUInt16, buf.drop 2) :=
  map_of_ok (map_of_ok (take_of_le eof enough) ofBigEndian) Nat.toUInt16

end ByteParser

end Erez.Lib
