import Erez.Daemon.Descent

/-! # RTT samples of the last ten seconds

The aggregator keeps a queue of samples for every NLRI and nexthop. Each call that
takes the lock first drops the samples that have left the window, with the queues
and prefixes they leave empty, so a state never holds an empty queue. Event
timestamps are not ordered and may lie in the future, where they saturate. The sum
of a window is a checked `u64`, as in a debug build.
-/

namespace Erez.Daemon

open Erez.Lib Descent

structure TcpRttSample where
  tsNs : UInt64
  srttUs : UInt32
  rttMin : UInt32
  deriving DecidableEq

/-- Time in nanoseconds after which samples are dropped. -/
def aggregationWindowNs : ℕ := 10 * 1000000000

/-- `now.saturating_sub(ts) <= AGGREGATION_WINDOW_NS`. -/
def InWindow (now ts : UInt64) : Prop :=
  now.toNat - ts.toNat ≤ aggregationWindowNs

instance (now ts : UInt64) : Decidable (InWindow now ts) :=
  inferInstanceAs (Decidable (_ ≤ _))

/-- The samples of a queue that are in the window. -/
def recent (now : UInt64) (queue : List TcpRttSample) : List TcpRttSample :=
  queue.filter fun sample => InWindow now sample.tsNs

abbrev Queues := FiniteMap Nlri (FiniteMap Nexthop (List TcpRttSample))

/-- No queue is empty. -/
def Filled (samples : Queues) : Prop :=
  ∀ nlri byNexthop, samples.get? nlri = some byNexthop →
    ∀ nexthop queue, byNexthop.get? nexthop = some queue → queue ≠ []

structure TcpRttAggregatorState where
  samples : Queues
  filled : Filled samples

namespace TcpRttAggregatorState

def default : TcpRttAggregatorState where
  samples := ∅
  filled := by simp [Filled]

def retainQueue (now : UInt64) (queue : List TcpRttSample) : Option (List TcpRttSample) :=
  let kept := recent now queue
  if kept = [] then none else some kept

def retainNexthops (now : UInt64) (byNexthop : FiniteMap Nexthop (List TcpRttSample)) :
    Option (FiniteMap Nexthop (List TcpRttSample)) :=
  let kept := byNexthop.filterMapValues (retainQueue now)
  if kept.keys = [] then none else some kept

def prune (state : TcpRttAggregatorState) (now : UInt64) : TcpRttAggregatorState where
  samples := state.samples.filterMapValues (retainNexthops now)
  filled := by
    intro nlri byNexthop found nexthop queue kept
    rw [FiniteMap.get?_filterMapValues] at found
    obtain ⟨before, -, retained⟩ := Option.bind_eq_some_iff.mp found
    simp only [retainNexthops] at retained
    split at retained
    · cases retained
    · cases retained
      rw [FiniteMap.get?_filterMapValues] at kept
      obtain ⟨full, -, shortened⟩ := Option.bind_eq_some_iff.mp kept
      simp only [retainQueue] at shortened
      split at shortened
      · cases shortened
      · rename_i nonempty
        cases shortened
        exact nonempty

/-- The queue of an NLRI and nexthop; none when it has no samples. -/
def queue (state : TcpRttAggregatorState) (nlri : Nlri) (nexthop : Nexthop) : List TcpRttSample :=
  ((state.samples.get? nlri).bind (·.get? nexthop)).getD []

theorem queue_prune (state : TcpRttAggregatorState) (now : UInt64) (nlri : Nlri)
    (nexthop : Nexthop) :
    (state.prune now).queue nlri nexthop = recent now (state.queue nlri nexthop) := by
  have retained : ∀ queue, (retainQueue now queue).getD [] = recent now queue := by
    intro queue
    by_cases gone : recent now queue = [] <;> simp [retainQueue, gone]
  simp only [queue, prune, FiniteMap.get?_filterMapValues]
  cases state.samples.get? nlri with
  | none => rfl
  | some byNexthop =>
      have kept : ((byNexthop.filterMapValues (retainQueue now)).get? nexthop).getD [] =
          recent now ((byNexthop.get? nexthop).getD []) := by
        rw [FiniteMap.get?_filterMapValues]
        cases byNexthop.get? nexthop with
        | none => rfl
        | some queue => exact retained queue
      by_cases gone : (byNexthop.filterMapValues (retainQueue now)).keys = []
      · have absent : (byNexthop.filterMapValues (retainQueue now)).get? nexthop = none := by
          rw [FiniteMap.get?_eq_none, AList.mem_keys, gone]
          exact List.not_mem_nil
        rw [absent] at kept
        simpa [retainNexthops, gone] using kept
      · simpa [retainNexthops, gone] using kept

/-- The queue is what the table has, since it has no empty ones. -/
theorem get?_samples (state : TcpRttAggregatorState) (nlri : Nlri) (nexthop : Nexthop) :
    (state.samples.get? nlri).bind (·.get? nexthop) =
      if state.queue nlri nexthop = [] then none else some (state.queue nlri nexthop) := by
  rw [queue]
  cases found : state.samples.get? nlri with
  | none => rfl
  | some byNexthop =>
      cases present : byNexthop.get? nexthop with
      | none => simp [present]
      | some queue => simp [present, state.filled nlri byNexthop found nexthop queue present]

/-- `entry(nlri).or_default().entry(nexthop).or_default().push_back(sample)`. -/
def push (state : TcpRttAggregatorState) (nlri : Nlri) (nexthop : Nexthop) (sample : TcpRttSample) :
    TcpRttAggregatorState where
  samples :=
    let byNexthop := (state.samples.get? nlri).getD ∅
    state.samples.insert nlri
      (byNexthop.insert nexthop ((byNexthop.get? nexthop).getD [] ++ [sample]))
  filled := by
    intro other byNexthop found nh queue present
    rw [FiniteMap.get?_insert] at found
    split at found
    · cases found
      rw [FiniteMap.get?_insert] at present
      split at present
      · cases present
        simp
      · cases before : state.samples.get? nlri with
        | none => simp [before] at present
        | some byNexthop =>
            rw [before] at present
            exact state.filled nlri byNexthop before nh queue present
    · exact state.filled other byNexthop found nh queue present

theorem queue_push (state : TcpRttAggregatorState) (nlri : Nlri) (nexthop : Nexthop)
    (sample : TcpRttSample) (nlri' : Nlri) (nexthop' : Nexthop) :
    (state.push nlri nexthop sample).queue nlri' nexthop' =
      if nlri' = nlri ∧ nexthop' = nexthop then state.queue nlri' nexthop' ++ [sample]
      else state.queue nlri' nexthop' := by
  simp only [queue, push, FiniteMap.get?_insert]
  by_cases sameNlri : nlri' = nlri
  · subst sameNlri
    by_cases sameNexthop : nexthop' = nexthop
    · subst sameNexthop
      cases state.samples.get? nlri' <;> simp
    · cases state.samples.get? nlri' <;> simp [FiniteMap.get?_insert, sameNexthop]
  · simp [sameNlri]

/-- `TcpRttAggregator::observe` at the clock reading `now`. -/
def observe (state : TcpRttAggregatorState) (now : UInt64) (event : CTcpRttEvent) :
    Except String Unit × TcpRttAggregatorState :=
  if ¬ InWindow now event.tsNs then
    (.ok (), state)
  else
    let state := state.prune now
    match IpNet.tryFrom event.matchedNlri with
    | .error e => (.error s!"failed parsing matched cnlri: {e}", state)
    | .ok nlri =>
        let sample := ⟨event.tsNs, event.srttUs, event.rttMin⟩
        (.ok (), state.push nlri (IpAddr.ofCIpv6Addr event.nexthop) sample)

end TcpRttAggregatorState

namespace TcpRttWindow

/-- `iter().sum()` over `u64`. -/
def sumSrtt : List TcpRttSample → (acc : UInt64) → Except Panic UInt64
  | [], acc => .ok acc
  | sample :: rest, acc =>
      if acc.toNat + sample.srttUs.toNat < 2 ^ 64 then sumSrtt rest (acc + sample.srttUs.toUInt64)
      else .error .addOverflow

def fromSamples (samples : List TcpRttSample) : Except Panic TcpRttWindow := do
  if samples = [] then
    .ok ⟨0, 0, 0, 0⟩
  else
    let srttSum ← sumSrtt samples 0
    .ok
      { samples := samples.length
        avgSrttUs := UInt64.ofNat (srttSum.toNat / samples.length)
        maxSrttUs := (samples.map (·.srttUs)).max?.getD 0
        minRttMin := (samples.map (·.rttMin)).min?.getD 0 }

end TcpRttWindow

/-- `TcpRttAggregator::snapshot` at the clock reading `now`. -/
def TcpRttAggregatorState.snapshot (state : TcpRttAggregatorState) (now : UInt64) :
    Except Panic (TcpRttSnapshot × TcpRttAggregatorState) := do
  let state := state.prune now
  let windows ← state.samples.traverse fun byNexthop => byNexthop.traverse TcpRttWindow.fromSamples
  .ok (⟨windows⟩, state)

end Erez.Daemon
