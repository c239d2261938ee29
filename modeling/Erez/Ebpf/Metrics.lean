import Mathlib

/-! # Counters of the eBPF programs

One 64-bit counter per series of `metrics_t`. Counters wrap, like the C code's
`__u64` increments.
-/

namespace Erez.Ebpf

/-- The fields of `metrics_t`, in order. -/
inductive Counter where
  | decapDecapsulatedPacketsTotal
  | decapErrorsTotalDecapFailed
  | decapErrorsTotalDecrementInnerTtlFailed
  | decapErrorsTotalFibLookupFailed
  | decapErrorsTotalRedirectFailed
  | decapErrorsTotalSameIfindex
  | decapParseErrorsTotalShortPacket
  | decapProcessedPacketsTotal
  | decapRedirectedPacketsTotal
  | decapSkippedPacketsTotalUnsupportedInnerL3Proto
  | decapSkippedPacketsTotalUnsupportedOuterL3Proto
  | decapSkippedPacketsTotalUnsupportedOuterL4Proto
  | encapEncapsulatedPacketsTotal
  | encapErrorsTotalEncapFailed
  | encapFibEntryValidationErrorsTotalInvalidNexthopCount
  | encapFibEntryValidationErrorsTotalZeroWeight
  | encapFibEntryValidationErrorsTotalInvalidWeightSum
  | encapFibHitsTotal
  | encapFibMissesTotal
  | encapParseErrorsTotalDestNlriLoad
  | encapParseErrorsTotalL4ProtoLoad
  | encapProcessedPacketsTotal
  | encapSkippedPacketsTotalUnsupportedL3Proto
  | encapSkippedPacketsTotalUnsupportedL4Proto
  | encapStickyNexthopTotalHit
  | encapStickyNexthopTotalMiss
  | encapStickyNexthopTotalStore
  | sockopsRttCallbackRegistrationsTotalSuccess
  | sockopsRttCallbackRegistrationsTotalFailed
  | sockopsRttCallbacksTotal
  | sockopsRttEventsTotal
  | sockopsRttEventDropsTotalRingbufFull
  | sockopsRttSkippedTotalStickyNexthopMiss
  | sockopsRttSkippedTotalUnsupportedFamily
  deriving DecidableEq, Repr

abbrev Metrics := Counter → UInt64

namespace Metrics

def zero : Metrics := fun _ => 0

/-- `metrics->counter++`. -/
def bump (metrics : Metrics) (counter : Counter) : Metrics :=
  Function.update metrics counter (metrics counter + 1)

@[simp]
theorem bump_other (metrics : Metrics) {counter other : Counter} (h : other ≠ counter) :
    metrics.bump counter other = metrics other :=
  Function.update_of_ne h _ metrics

/-- Several increments, one after the other. -/
def bumpAll (metrics : Metrics) (trail : List Counter) : Metrics :=
  trail.foldl bump metrics

theorem bumpAll_append (metrics : Metrics) (trail rest : List Counter) :
    metrics.bumpAll (trail ++ rest) = (metrics.bumpAll trail).bumpAll rest :=
  List.foldl_append

/-- The sum of some counters, modulo `2^64`. -/
def total (metrics : Metrics) (counters : List Counter) : UInt64 :=
  (counters.map metrics).sum

theorem total_bump (metrics : Metrics) (counter : Counter) {counters : List Counter}
    (distinct : counters.Nodup) :
    (metrics.bump counter).total counters =
      metrics.total counters + if counter ∈ counters then 1 else 0 := by
  induction counters with
  | nil => rfl
  | cons first rest ih =>
      obtain ⟨absent, restDistinct⟩ := List.nodup_cons.mp distinct
      have later := ih restDistinct
      simp only [total, List.map_cons, List.sum_cons] at later ⊢
      rw [later]
      by_cases here : counter = first
      · subst here
        simp only [absent, if_false, List.mem_cons_self, if_true, bump, Function.update_self,
          UInt64.add_zero]
        ac_rfl
      · simp only [List.mem_cons, here, false_or, bump_other metrics (Ne.symm here)]
        ac_rfl

/-- Increments show up in a sum as often as they hit one of its counters. -/
theorem total_bumpAll (metrics : Metrics) (trail : List Counter) {counters : List Counter}
    (distinct : counters.Nodup) :
    (metrics.bumpAll trail).total counters =
      metrics.total counters + UInt64.ofNat (trail.countP (· ∈ counters)) := by
  induction trail generalizing metrics with
  | nil => exact (UInt64.add_zero _).symm
  | cons counter rest ih =>
      have split : metrics.bumpAll (counter :: rest) = (metrics.bump counter).bumpAll rest := rfl
      rw [split, ih, total_bump metrics counter distinct, List.countP_cons]
      by_cases hit : counter ∈ counters
      · have one : UInt64.ofNat 1 = 1 := rfl
        simp only [hit, if_true, decide_true, UInt64.ofNat_add, one]
        ac_rfl
      · simp [hit]

end Metrics

end Erez.Ebpf
