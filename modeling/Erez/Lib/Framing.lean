import Mathlib

/-! # Decoding a stream of frames

A decoder looks at the bytes that have come so far: it waits for more, takes a frame off their
front, or fails for good. How the stream is cut into chunks does not matter, if more bytes do
not change what the decoder has made of those before them (`Decoder.Stable`) and no frame is
empty (`Decoder.Progress`).
-/

namespace Erez.Lib

inductive Decoded (σ β μ ε : Type*) where
  | wait
  | item (item : μ) (state : σ) (rest : List β)
  | error (error : ε)

/-- The same with more bytes left over. -/
def Decoded.append {σ β μ ε : Type*} (more : List β) : Decoded σ β μ ε → Decoded σ β μ ε
  | .wait => .wait
  | .item frame state rest => .item frame state (rest ++ more)
  | .error failure => .error failure

/-- From a state and a buffer. -/
abbrev Decoder (σ β μ ε : Type*) := σ → List β → Decoded σ β μ ε

namespace Decoder

/-- What a stream has given so far: its items, and what it waits with or has failed with. -/
abbrev Received (σ β μ ε : Type*) := List μ × Except ε (σ × List β)

variable {σ β μ ε : Type*} (decode : Decoder σ β μ ε)

/-- Take off frames, a number of them at most. -/
def drain : ℕ → σ → List β → Received σ β μ ε
  | 0, s, buf => ([], .ok (s, buf))
  | n + 1, s, buf =>
      match decode s buf with
      | .wait => ([], .ok (s, buf))
      | .error error => ([], .error error)
      | .item item s' rest => let later := drain n s' rest; (item :: later.1, later.2)

/-- A chunk arrives. A stream that has failed is over. -/
def feed (received : Received σ β μ ε) (chunk : List β) : Received σ β μ ε :=
  match received.2 with
  | .error _ => received
  | .ok (s, buf) =>
      let later := drain decode ((buf ++ chunk).length + 1) s (buf ++ chunk)
      (received.1 ++ later.1, later.2)

/-- More bytes change nothing of a frame or of a failure. -/
structure Stable : Prop where
  of_append ::
  append : ∀ s buf more, decode s buf ≠ .wait → decode s (buf ++ more) = (decode s buf).append more

/-- No frame is empty. -/
structure Progress : Prop where
  shorter : ∀ {s buf item s' rest}, decode s buf = .item item s' rest → rest.length < buf.length

variable {decode}

theorem Stable.item (stable : decode.Stable) {s s' : σ} {buf rest : List β} {item : μ}
    (step : decode s buf = .item item s' rest) (more : List β) :
    decode s (buf ++ more) = .item item s' (rest ++ more) := by
  rw [stable.append s buf more (by rw [step]; nofun), step, Decoded.append]

theorem Stable.error (stable : decode.Stable) {s : σ} {buf : List β} {error : ε}
    (step : decode s buf = .error error) (more : List β) :
    decode s (buf ++ more) = .error error := by
  rw [stable.append s buf more (by rw [step]; nofun), step, Decoded.append]

/-- Enough rounds are as good as more. -/
theorem drain_enough (progress : decode.Progress) {n m : ℕ} {s : σ} {buf : List β}
    (hn : buf.length < n) (hm : buf.length < m) :
    drain decode n s buf = drain decode m s buf := by
  induction n generalizing m s buf with
  | zero => exact absurd hn (Nat.not_lt_zero _)
  | succ n ih =>
      obtain ⟨m, rfl⟩ : ∃ k, m = k + 1 := ⟨m - 1, by omega⟩
      rw [drain, drain]
      cases step : decode s buf with
      | wait => rfl
      | error error => rfl
      | item item s' rest =>
          have shorter := progress.shorter step
          have same : drain decode n s' rest = drain decode m s' rest := ih (by omega) (by omega)
          simp only [same]

theorem drain_item (progress : decode.Progress) {s s' : σ} {buf rest : List β} {item : μ}
    (step : decode s buf = .item item s' rest) :
    drain decode (buf.length + 1) s buf =
      (item :: (drain decode (rest.length + 1) s' rest).1,
        (drain decode (rest.length + 1) s' rest).2) := by
  have same : drain decode buf.length s' rest = drain decode (rest.length + 1) s' rest :=
    drain_enough progress (progress.shorter step) (Nat.lt_succ_self _)
  rw [drain, step]
  simp only [same]

theorem feed_prepend (front : List μ) (received : Received σ β μ ε) (chunk : List β) :
    feed decode (front ++ received.1, received.2) chunk =
      (front ++ (feed decode received chunk).1, (feed decode received chunk).2) := by
  obtain ⟨items, waiting | ⟨s, buf⟩⟩ := received
  · rfl
  · simp only [feed, List.append_assoc]

/-- More bytes are decoded where the ones before them have left off. -/
theorem drain_append (stable : decode.Stable) (progress : decode.Progress) (s : σ)
    (buf more : List β) :
    drain decode ((buf ++ more).length + 1) s (buf ++ more) =
      feed decode (drain decode (buf.length + 1) s buf) more := by
  induction size : buf.length using Nat.strong_induction_on generalizing s buf with
  | _ n ih =>
      subst size
      cases step : decode s buf with
      | wait =>
          have waits : drain decode (buf.length + 1) s buf = ([], .ok (s, buf)) := by
            rw [drain, step]
          simp only [waits, feed, List.nil_append]
      | error error =>
          rw [drain, stable.error step, drain, step]
          rfl
      | item item s' rest =>
          have later := ih rest.length (progress.shorter step) s' rest rfl
          rw [drain_item progress (stable.item step more), drain_item progress step, later]
          exact (feed_prepend [item] _ more).symm

theorem feed_feed (stable : decode.Stable) (progress : decode.Progress)
    (received : Received σ β μ ε) (front back : List β) :
    feed decode (feed decode received front) back = feed decode received (front ++ back) := by
  obtain ⟨items, error | ⟨s, buf⟩⟩ := received
  · rfl
  · have whole := drain_append stable progress s (buf ++ front) back
    simp only [feed]
    rw [← List.append_assoc, whole]
    exact feed_prepend items _ back

/-- The stream does not depend on the chunks that it comes in. -/
theorem foldl_feed (stable : decode.Stable) (progress : decode.Progress) {s : σ}
    (idle : decode s [] = .wait) (chunks : List (List β)) :
    chunks.foldl (feed decode) ([], .ok (s, [])) =
      drain decode (chunks.flatten.length + 1) s chunks.flatten := by
  have start : ∀ buf, drain decode (buf.length + 1) s buf = feed decode ([], .ok (s, [])) buf :=
    fun buf => rfl
  rw [start]
  induction chunks using List.reverseRecOn with
  | nil =>
      have waits : drain decode 1 s [] = ([], .ok (s, [])) := by rw [drain, idle]
      exact waits.symm
  | append_singleton chunks chunk ih =>
      rw [List.foldl_append, ih, List.flatten_append, List.flatten_singleton]
      exact feed_feed stable progress _ _ _

/-- A stream of frames, each of which is decoded from its own bytes. -/
theorem drain_flatMap (stable : decode.Stable) (progress : decode.Progress)
    (idle : ∀ s, decode s [] = .wait) {ν : Type*} {encode : ν → List β} {read : ν → μ}
    {state : σ → ν → σ} {items : List ν}
    (frame : ∀ s, ∀ item ∈ items, decode s (encode item) = .item (read item) (state s item) [])
    (s : σ) :
    drain decode ((items.flatMap encode).length + 1) s (items.flatMap encode) =
      (items.map read, .ok (items.foldl state s, [])) := by
  induction items generalizing s with
  | nil =>
      rw [List.flatMap_nil, drain, idle]
      rfl
  | cons item items ih =>
      have later := ih (fun s other member => frame s other (List.mem_cons_of_mem _ member))
        (state s item)
      have first := stable.item (frame s item List.mem_cons_self) (items.flatMap encode)
      rw [List.nil_append] at first
      rw [List.flatMap_cons, drain_item progress first, later]
      rfl

end Decoder

end Erez.Lib
