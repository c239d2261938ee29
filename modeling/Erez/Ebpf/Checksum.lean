import Erez.Ebpf.Decap
import Erez.Ebpf.RoundTrip
import Erez.Lib.OnesComplement

/-! # The checksum after the time to live is decremented

The program updates the checksum of an IPv4 header in place, as the kernel's
`ip_decrease_ttl` does: it adds what the header lost, in the byte order of the host,
with the carry. On either host the outcome is the checksum that a full
recomputation over the new header gives.
-/

namespace Erez.Ebpf

open Erez.Daemon Erez.Lib ByteBuffer OnesComplement

inductive ByteOrder where
  | little
  | big
  deriving DecidableEq

namespace ByteOrder

/-- `bpf_htons`, and `bpf_ntohs` too. -/
def htons : ByteOrder → UInt16 → UInt16
  | little, word => swap word
  | big, word => word

/-- A 16-bit field as the host loads it. -/
def load : ByteOrder → UInt8 → UInt8 → UInt16
  | little, first, second => first.toUInt16 + 256 * second.toUInt16
  | big, first, second => 256 * first.toUInt16 + second.toUInt16

def store : ByteOrder → UInt16 → List UInt8
  | little, word => [word.toUInt8, (word >>> 8).toUInt8]
  | big, word => [(word >>> 8).toUInt8, word.toUInt8]

end ByteOrder

/-- `sum + (sum >= 0xffff)`, cut to 16 bits. -/
def addCarried (check amount : UInt16) : UInt16 :=
  let sum : UInt32 := check.toUInt32 + amount.toUInt32
  (sum + if sum ≥ 0xFFFF then 1 else 0).toUInt16

/-- Add to the checksum what was taken off the time to live, with the carry. -/
def refreshCheck (order : ByteOrder) (first second : UInt8) : List UInt8 :=
  order.store (addCarried (order.load first second) (order.htons 0x0100))

/-- `decap_pkt_decrement_inner_ttl` on a host of either byte order: whether it returns
    zero, and the frame it leaves. -/
def decrementInnerTtl (order : ByteOrder) (data : Frame) (innerL3Proto : UInt16) : Bool × Frame :=
  let ip := ethHdrLen
  if innerL3Proto = ethP_IP then
    if ethHdrLen + ipv4HdrLen > data.length then (false, data)
    else
      let ttl := data.getD (ip + 8) 0
      if ttl ≤ 1 then (false, data)
      else
        let data := patch data (ip + 8) [ttl - 1]
        (true, patch data (ip + 10)
          (refreshCheck order (data.getD (ip + 10) 0) (data.getD (ip + 11) 0)))
  else if innerL3Proto = ethP_IPV6 then
    if ethHdrLen + ipv6HdrLen > data.length then (false, data)
    else
      let hopLimit := data.getD (ip + 7) 0
      if hopLimit ≤ 1 then (false, data) else (true, patch data (ip + 7) [hopLimit - 1])
  else (false, data)

theorem refreshCheck_little (low high : UInt8) :
    refreshCheck .little low high = fixChecksum low high := by
  have loaded : (ByteOrder.little.load low high).toUInt32 +
      (ByteOrder.little.htons 0x0100).toUInt32 = low.toUInt32 + 256 * high.toUInt32 + 1 := by
    have hl := low.toNat_lt
    have hh := high.toNat_lt
    have one : (swap 0x0100).toNat = 1 := by decide
    apply UInt32.toNat_inj.mp
    simp [ByteOrder.load, ByteOrder.htons, one, UInt32.toNat_add, UInt32.toNat_mul]
    omega
  rw [refreshCheck, addCarried, loaded]
  rfl

/-- The program run on a little-endian host. -/
theorem decrementInnerTtl_little (data : Frame) (innerL3Proto : UInt16) :
    decapPktDecrementInnerTtl data innerL3Proto =
      if (decrementInnerTtl .little data innerL3Proto).1 then
        some (decrementInnerTtl .little data innerL3Proto).2
      else none := by
  simp only [decapPktDecrementInnerTtl, decrementInnerTtl, refreshCheck_little]
  split_ifs <;> simp_all

/-! ## The update in the order of the host -/

private theorem octets_of (word : UInt16) :
    ∃ high low, high < 256 ∧ low < 256 ∧ word.toNat = 256 * high + low := by
  have bound := word.toNat_lt
  exact ⟨word.toNat / 256, word.toNat % 256, by omega, by omega, by omega⟩

theorem load_be16 (order : ByteOrder) (word : UInt16) :
    order.load (word >>> 8).toUInt8 word.toUInt8 = order.htons word := by
  obtain ⟨high, low, hh, hl, value⟩ := octets_of word
  have front : (256 * high + low) / 256 = high := by omega
  have back : (256 * high + low) % 256 = low := by omega
  apply UInt16.toNat_inj.mp
  cases order with
  | little =>
      simp [ByteOrder.load, ByteOrder.htons, toNat_swap, Nat.shiftRight_eq_div_pow, value, front, back,
        Nat.mod_eq_of_lt hh]
      omega
  | big =>
      simp [ByteOrder.load, ByteOrder.htons, Nat.shiftRight_eq_div_pow, value, front]
      omega

theorem store_eq (order : ByteOrder) (word : UInt16) :
    order.store word = be16 (order.htons word) := by
  obtain ⟨high, low, hh, hl, value⟩ := octets_of word
  have front : (256 * high + low) / 256 = high := by omega
  have back : (256 * high + low) % 256 = low := by omega
  have swapped : (low * 256 + high) / 256 = low := by omega
  cases order with
  | big => rfl
  | little =>
      have first : word.toUInt8 = (swap word >>> 8).toUInt8 := by
        apply UInt8.toNat_inj.mp
        simp [toNat_swap, Nat.shiftRight_eq_div_pow, value, front, back, swapped,
          Nat.mod_eq_of_lt hl]
      have second : (word >>> 8).toUInt8 = (swap word).toUInt8 := by
        apply UInt8.toNat_inj.mp
        simp [toNat_swap, Nat.shiftRight_eq_div_pow, value, front, back]
      rw [ByteOrder.store, ByteOrder.htons, be16, first, second]

/-- A sum with its carry avoids the second zero. -/
theorem addCarried_modEq (check : UInt16) {amount : UInt16} (low : amount.toNat ≠ 65535) :
    (addCarried check amount).toNat ≡ check.toNat + amount.toNat [MOD 65535] ∧
      (addCarried check amount).toNat ≠ 65535 := by
  have hc := check.toNat_lt
  have ha := amount.toNat_lt
  have total : (check.toUInt32 + amount.toUInt32).toNat = check.toNat + amount.toNat := by
    simp only [UInt32.toNat_add, UInt16.toNat_toUInt32]
    omega
  simp only [addCarried, ge_iff_le, UInt32.le_iff_toNat_le, UInt32.toNat_toUInt16, UInt32.toNat_add,
    total, Nat.ModEq, UInt32.reduceToNat]
  split
  · simp only [UInt32.reduceToNat]
    omega
  · simp only [UInt32.reduceToNat]
    omega

/-- In either byte order the update adds `0x0100` to the checksum, and does not end at
    the second zero. -/
theorem refreshCheck_eq (order : ByteOrder) (check : UInt16) :
    ∃ updated : UInt16,
      refreshCheck order (check >>> 8).toUInt8 check.toUInt8 = be16 updated ∧
      updated.toNat ≡ check.toNat + 256 [MOD 65535] ∧ updated.toNat ≠ 65535 := by
  have amount : (order.htons 0x0100).toNat ≠ 65535 := by
    cases order <;> decide
  obtain ⟨added, canonical⟩ := addCarried_modEq (order.htons check) amount
  rw [refreshCheck, load_be16]
  refine ⟨_, store_eq order _, ?_⟩
  generalize addCarried (order.htons check) (order.htons 0x0100) = carried at added canonical ⊢
  cases order with
  | big => exact ⟨added, canonical⟩
  | little =>
      refine ⟨?_, fun full => canonical (swap_eq_full.mp full)⟩
      have swapped : (256 * carried.toNat) ≡ 256 * (256 * check.toNat + 1) [MOD 65535] :=
        (added.trans ((swap_modEq check).add_right 1)).mul_left 256
      refine ((swap_modEq carried).trans swapped).trans ?_
      rw [Nat.ModEq]
      omega

/-! ## The header -/

/-- An IPv4 header by its 16-bit words, without the checksum: four words, the time to
    live and the protocol, and whatever comes after the checksum, options included. -/
structure Ipv4Header where
  front : List UInt16
  ttl : UInt8
  protocol : UInt8
  rest : List UInt16
  front_length : front.length = 4

namespace Ipv4Header

/-- The word that holds the time to live. -/
def ttlWord (header : Ipv4Header) : UInt16 :=
  256 * header.ttl.toUInt16 + header.protocol.toUInt16

/-- The words that the checksum is over. -/
def words (header : Ipv4Header) : List UInt16 :=
  header.front ++ header.ttlWord :: header.rest

/-- The header on the wire, around a checksum. -/
def bytes (header : Ipv4Header) (check : UInt16) : List UInt8 :=
  (header.front ++ header.ttlWord :: check :: header.rest).flatMap be16

def decremented (header : Ipv4Header) : Ipv4Header :=
  { header with ttl := header.ttl - 1 }

theorem toNat_ttlWord (header : Ipv4Header) :
    header.ttlWord.toNat = 256 * header.ttl.toNat + header.protocol.toNat := by
  have ht := header.ttl.toNat_lt
  have hp := header.protocol.toNat_lt
  simp [ttlWord]
  omega

theorem be16_ttlWord (header : Ipv4Header) : be16 header.ttlWord = [header.ttl, header.protocol] := by
  have ht := header.ttl.toNat_lt
  have hp := header.protocol.toNat_lt
  have value := header.toNat_ttlWord
  have high : (header.ttlWord >>> 8).toUInt8 = header.ttl := by
    apply UInt8.toNat_inj.mp
    simp [value, Nat.shiftRight_eq_div_pow]
    omega
  have low : header.ttlWord.toUInt8 = header.protocol := by
    apply UInt8.toNat_inj.mp
    simp [value]
  rw [be16, high, low]

theorem toNat_ttl_decremented {header : Ipv4Header} (more : 1 < header.ttl) :
    header.decremented.ttl.toNat + 1 = header.ttl.toNat ∧ 0 < header.decremented.ttl.toNat := by
  have larger := UInt8.lt_iff_toNat_lt.mp more
  have taken : header.decremented.ttl.toNat = header.ttl.toNat - 1 :=
    UInt8.toNat_sub_of_le _ _ (UInt8.le_iff_toNat_le.mpr larger.le)
  have one : (1 : UInt8).toNat = 1 := rfl
  omega

theorem sum_decremented {header : Ipv4Header} (more : 1 < header.ttl) :
    (header.words.map UInt16.toNat).sum =
      (header.decremented.words.map UInt16.toNat).sum + 256 := by
  have less := (toNat_ttl_decremented more).1
  have before := header.toNat_ttlWord
  have after := header.decremented.toNat_ttlWord
  have protocol : header.decremented.protocol = header.protocol := rfl
  rw [protocol] at after
  have rest : header.decremented.words = header.front ++ header.decremented.ttlWord :: header.rest :=
    rfl
  rw [words, rest]
  simp only [List.map_append, List.map_cons, List.sum_append, List.sum_cons]
  omega

theorem words_decremented_ne {header : Ipv4Header} (more : 1 < header.ttl) :
    ∃ word ∈ header.decremented.words, word ≠ 0 := by
  refine ⟨header.decremented.ttlWord, by simp [words], fun zero => ?_⟩
  have positive := (toNat_ttl_decremented more).2
  have value := header.decremented.toNat_ttlWord
  rw [zero, UInt16.toNat_zero] at value
  omega

theorem length_front_bytes (header : Ipv4Header) : (header.front.flatMap be16).length = 8 := by
  simp [List.length_flatMap, header.front_length]

theorem bytes_eq (header : Ipv4Header) (check : UInt16) :
    header.bytes check = header.front.flatMap be16 ++ ([header.ttl] ++ ([header.protocol] ++
      (be16 check ++ header.rest.flatMap be16))) := by
  simp [bytes, List.flatMap_append, List.flatMap_cons, be16_ttlWord]

end Ipv4Header

/-- The update in place leaves the checksum that the new header has. -/
theorem refreshCheck_checksum (order : ByteOrder) {header : Ipv4Header} (more : 1 < header.ttl) :
    refreshCheck order (checksum header.words >>> 8).toUInt8 (checksum header.words).toUInt8 =
      be16 (checksum header.decremented.words) := by
  obtain ⟨updated, stored, added, canonical⟩ := refreshCheck_eq order (checksum header.words)
  rw [stored, eq_checksum (Ipv4Header.sum_decremented more) (Ipv4Header.words_decremented_ne more)
    added canonical]

theorem getD_right {front back : Frame} {offset : ℕ} (h : front.length ≤ offset) :
    (front ++ back).getD offset 0 = back.getD (offset - front.length) 0 :=
  List.getD_append_right front back 0 offset h

/-! ## The frame, by the fields that the program reads and writes -/

def laidOut (eth front : Frame) (ttl protocol : UInt8) (check : UInt16) (rest : Frame) : Frame :=
  eth ++ (front ++ ([ttl] ++ ([protocol] ++ (be16 check ++ rest))))

theorem Ipv4Header.laidOut_eq (header : Ipv4Header) (check : UInt16) (eth payload : Frame) :
    eth ++ (header.bytes check ++ payload) =
      laidOut eth (header.front.flatMap be16) header.ttl header.protocol check
        (header.rest.flatMap be16 ++ payload) := by
  simp only [laidOut, header.bytes_eq, List.append_assoc]

section LaidOut

variable {eth front : Frame} (ethLength : eth.length = ethHdrLen) (frontLength : front.length = 8)
  (ttl protocol : UInt8) (check : UInt16) (rest : Frame)

include ethLength frontLength

theorem getD_ttl : (laidOut eth front ttl protocol check rest).getD (ethHdrLen + 8) 0 = ttl := by
  rw [laidOut, getD_right (by omega), getD_right (by omega), ethLength, frontLength]
  rfl

theorem patch_ttl (aged : UInt8) :
    patch (laidOut eth front ttl protocol check rest) (ethHdrLen + 8) [aged] =
      laidOut eth front aged protocol check rest := by
  rw [laidOut, patch_right (by omega), patch_right (by omega), ethLength, frontLength]
  exact congrArg (fun tail => eth ++ (front ++ tail)) (patch_here rfl)

theorem getD_check (i : ℕ) :
    (laidOut eth front ttl protocol check rest).getD (ethHdrLen + 10 + i) 0 =
      (be16 check ++ rest).getD i 0 := by
  rw [laidOut, getD_right (by omega), getD_right (by omega), ethLength, frontLength,
    getD_right (by simp; omega), getD_right (by simp; omega)]
  congr 1
  simp
  omega

theorem patch_check (updated : UInt16) :
    patch (laidOut eth front ttl protocol check rest) (ethHdrLen + 10) (be16 updated) =
      laidOut eth front ttl protocol updated rest := by
  rw [laidOut, patch_right (by omega), patch_right (by omega), ethLength, frontLength,
    patch_right (by rw [List.length_singleton]; omega),
    patch_right (by rw [List.length_singleton, List.length_singleton]; omega)]
  exact congrArg (fun tail => eth ++ (front ++ ([ttl] ++ ([protocol] ++ tail))))
    (patch_here (by simp))

end LaidOut

/-- A frame whose IPv4 header is whole and may be forwarded once more: the program
    writes the time to live and the checksum, and nothing else. -/
theorem decrementInnerTtl_ipv4 (order : ByteOrder) (header : Ipv4Header) (check : UInt16)
    {eth payload : Frame} (ethLength : eth.length = ethHdrLen) (more : 1 < header.ttl)
    (whole : ethHdrLen + ipv4HdrLen ≤ (eth ++ (header.bytes check ++ payload)).length)
    {updated : UInt16}
    (refreshed : refreshCheck order (check >>> 8).toUInt8 check.toUInt8 = be16 updated) :
    decrementInnerTtl order (eth ++ (header.bytes check ++ payload)) ethP_IP =
      (true, eth ++ (header.decremented.bytes updated ++ payload)) := by
  have front := header.length_front_bytes
  have after : eth ++ (header.decremented.bytes updated ++ payload) =
      laidOut eth (header.front.flatMap be16) (header.ttl - 1) header.protocol updated
        (header.rest.flatMap be16 ++ payload) :=
    header.decremented.laidOut_eq updated eth payload
  rw [header.laidOut_eq] at whole ⊢
  rw [after]
  generalize header.rest.flatMap be16 ++ payload = rest at whole ⊢
  have octets := getD_check ethLength front (header.ttl - 1) header.protocol check rest
  have high : (laidOut eth (header.front.flatMap be16) (header.ttl - 1) header.protocol check
      rest).getD (ethHdrLen + 10) 0 = (check >>> 8).toUInt8 := octets 0
  have low : (laidOut eth (header.front.flatMap be16) (header.ttl - 1) header.protocol check
      rest).getD (ethHdrLen + 11) 0 = check.toUInt8 := octets 1
  rw [decrementInnerTtl, if_pos rfl, if_neg (not_lt.mpr whole), getD_ttl ethLength front,
    if_neg (UInt8.not_le.mpr more), patch_ttl ethLength front]
  simp only [high, low, refreshed, patch_check ethLength front]

/-- Nothing is written where the program fails. -/
theorem decrementInnerTtl_fails (order : ByteOrder) {data : Frame}
    (stuck : data.length < ethHdrLen + ipv4HdrLen ∨ data.getD (ethHdrLen + 8) 0 ≤ 1) :
    decrementInnerTtl order data ethP_IP = (false, data) := by
  rw [decrementInnerTtl, if_pos rfl]
  by_cases short : ethHdrLen + ipv4HdrLen > data.length
  · rw [if_pos short]
  · rw [if_neg short, if_pos (stuck.resolve_left short)]

/-- On a host of either byte order a header with a right checksum is left with the
    right checksum again. -/
theorem checksum_recomputed (order : ByteOrder) :
    (∀ (header : Ipv4Header) (eth payload : Frame), eth.length = ethHdrLen → 2 ≤ header.ttl →
      ethHdrLen + ipv4HdrLen ≤
        (eth ++ (header.bytes (checksum header.words) ++ payload)).length →
      decrementInnerTtl order (eth ++ (header.bytes (checksum header.words) ++ payload)) ethP_IP =
        (true, eth ++ (header.decremented.bytes (checksum header.decremented.words) ++ payload))) ∧
      ∀ data : Frame, data.length < ethHdrLen + ipv4HdrLen ∨ data.getD (ethHdrLen + 8) 0 ≤ 1 →
        decrementInnerTtl order data ethP_IP = (false, data) := by
  refine ⟨fun header eth payload ethLength enough whole => ?_, fun data => decrementInnerTtl_fails order⟩
  have more : 1 < header.ttl := by
    rw [UInt8.le_iff_toNat_le] at enough
    exact UInt8.lt_iff_toNat_lt.mpr enough
  exact decrementInnerTtl_ipv4 order header _ ethLength more whole (refreshCheck_checksum order more)

section Options

/-- A header with one word pair of options. -/
private def optioned : Ipv4Header where
  front := [0x4600, 0x0018, 0, 0]
  ttl := 2
  protocol := 17
  rest := [0xC633, 0x6407, 0xCB00, 0x7109, 0x9404, 0]
  front_length := rfl

theorem checksum_recomputed_options :
    decrementInnerTtl .big (List.replicate 14 0 ++ (optioned.bytes (checksum optioned.words) ++ []))
        ethP_IP =
      (true, List.replicate 14 0 ++
        (optioned.decremented.bytes (checksum optioned.decremented.words) ++ [])) :=
  (checksum_recomputed .big).1 optioned (List.replicate 14 0) [] rfl (by decide) (by decide)

end Options

end Erez.Ebpf
