import Erez.Daemon.RttAggregation
import Erez.Lib.Run

/-! # The aggregator is a ten-second sliding window

A sample that is in the window at some time was in it at every earlier time, so a
prune never drops a sample that a later snapshot still needs, in whatever order the
samples came. At the time of a snapshot the queue of an NLRI and nexthop therefore
holds the events of the whole history that are in the window, and nothing else.
-/

namespace Erez.Daemon

open Erez.Lib Descent

/-- A call at a clock reading. -/
inductive RttCall where
  | observe (now : UInt64) (event : CTcpRttEvent)
  | snapshot (now : UInt64)

namespace RttCall

def now : RttCall → UInt64
  | .observe now _ => now
  | .snapshot now => now

/-- The event of a call, if it is for this NLRI and nexthop. -/
def event? (nlri : Nlri) (nexthop : Nexthop) : RttCall → Option CTcpRttEvent
  | .observe _ event =>
      if IpNet.tryFrom event.matchedNlri = .ok nlri ∧ IpAddr.ofCIpv6Addr event.nexthop = nexthop then
        some event
      else none
  | .snapshot _ => none

end RttCall

/-- The events of a history that are in the window, for one NLRI and nexthop. -/
def liveEvents (calls : List RttCall) (now : UInt64) (nlri : Nlri) (nexthop : Nexthop) :
    List CTcpRttEvent :=
  (calls.filterMap (RttCall.event? nlri nexthop)).filter fun event => InWindow now event.tsNs

/-- The sample that an event adds. -/
def sampleOf (event : CTcpRttEvent) : TcpRttSample :=
  ⟨event.tsNs, event.srttUs, event.rttMin⟩

theorem InWindow.of_later {now later ts : UInt64} (order : now ≤ later) (h : InWindow later ts) :
    InWindow now ts := by
  have readings : now.toNat ≤ later.toNat := UInt64.le_iff_toNat_le.mp order
  simp only [InWindow] at h ⊢
  omega

namespace TcpRttAggregatorState

def step (state : TcpRttAggregatorState) : RttCall → Except Panic TcpRttAggregatorState
  | .observe now event => .ok (state.observe now event).2
  | .snapshot now => do
      let (_, state) ← state.snapshot now
      .ok state

/-! ## What a call does to one queue -/

private theorem recent_append (now : UInt64) (queue rest : List TcpRttSample) :
    recent now (queue ++ rest) = recent now queue ++ recent now rest :=
  List.filter_append queue rest

/-- To drop what has left the window already makes no difference later. -/
private theorem recent_recent {now later : UInt64} (order : now ≤ later)
    (queue : List TcpRttSample) : recent later (recent now queue) = recent later queue := by
  rw [recent, recent, recent, List.filter_filter]
  refine List.filter_congr fun sample _ => ?_
  by_cases kept : InWindow later sample.tsNs
  · simp [kept, kept.of_later order]
  · simp [kept]

private theorem recent_prune (state : TcpRttAggregatorState) {now later : UInt64}
    (order : now ≤ later) (nlri : Nlri) (nexthop : Nexthop) :
    recent later ((state.prune now).queue nlri nexthop) =
      recent later (state.queue nlri nexthop) := by
  rw [queue_prune, recent_recent order]

private theorem recent_map_sampleOf (now : UInt64) (events : List CTcpRttEvent) :
    recent now (events.map sampleOf) =
      (events.filter fun event => InWindow now event.tsNs).map sampleOf :=
  List.filter_map

/-- An event that is not too old is filed where it belongs and nowhere else. -/
theorem queue_observe (state : TcpRttAggregatorState) {now : UInt64} {event : CTcpRttEvent}
    (fresh : InWindow now event.tsNs) (nlri : Nlri) (nexthop : Nexthop) :
    (state.observe now event).2.queue nlri nexthop =
      recent now (state.queue nlri nexthop) ++
        ((RttCall.observe now event).event? nlri nexthop).toList.map sampleOf := by
  unfold observe
  simp only [fresh, not_true, if_false]
  cases decoded : IpNet.tryFrom event.matchedNlri with
  | error e =>
      have foreign : (RttCall.observe now event).event? nlri nexthop = none := by
        simp [RttCall.event?, decoded]
      rw [foreign]
      simp [queue_prune]
  | ok own =>
      simp only [queue_push, queue_prune, RttCall.event?, decoded, Except.ok.injEq]
      by_cases here : own = nlri ∧ IpAddr.ofCIpv6Addr event.nexthop = nexthop
      · rw [if_pos here, if_pos ⟨here.1.symm, here.2.symm⟩]
        rfl
      · rw [if_neg here, if_neg fun same => here ⟨same.1.symm, same.2.symm⟩]
        simp

private theorem recent_observe (state : TcpRttAggregatorState) {now later : UInt64}
    (order : now ≤ later) (event : CTcpRttEvent) (nlri : Nlri) (nexthop : Nexthop) :
    recent later ((state.observe now event).2.queue nlri nexthop) =
      recent later (state.queue nlri nexthop) ++
        recent later (((RttCall.observe now event).event? nlri nexthop).toList.map sampleOf) := by
  by_cases fresh : InWindow now event.tsNs
  · rw [queue_observe state fresh, recent_append, recent_recent order]
  · -- An event that is too old on arrival stays too old.
    have stale : ¬ InWindow later event.tsNs := fun late => fresh (late.of_later order)
    simp only [observe, fresh, not_false_eq_true, if_true]
    cases own : (RttCall.observe now event).event? nlri nexthop with
    | none => simp [recent]
    | some same =>
        have itself : event = same := by
          simp only [RttCall.event?] at own
          split at own
          · exact Option.some.inj own
          · cases own
        subst itself
        simp [recent, sampleOf, stale]

private theorem recent_step {state after : TcpRttAggregatorState} {call : RttCall}
    (stepped : state.step call = .ok after) {later : UInt64} (order : call.now ≤ later)
    (nlri : Nlri) (nexthop : Nexthop) :
    recent later (after.queue nlri nexthop) =
      recent later (state.queue nlri nexthop) ++
        recent later ((call.event? nlri nexthop).toList.map sampleOf) := by
  cases call with
  | observe now event =>
      obtain rfl := Except.ok.inj stepped
      exact recent_observe state order event nlri nexthop
  | snapshot now =>
      obtain rfl : state.prune now = after := by
        simp only [step, snapshot, bind, Except.bind] at stepped
        split at stepped
        · cases stepped
        · rename_i taken
          split at taken
          · cases taken
          · cases taken
            exact Except.ok.inj stepped
      have pruned := recent_prune state order nlri nexthop
      exact pruned.trans (List.append_nil _).symm

private theorem recent_from {calls : List RttCall} {start state : TcpRttAggregatorState}
    {now : UInt64} (ordered : ∀ call ∈ calls, call.now ≤ now)
    (ran : calls.foldlM step start = .ok state) (nlri : Nlri) (nexthop : Nexthop) :
    recent now (state.queue nlri nexthop) =
      recent now (start.queue nlri nexthop) ++
        (liveEvents calls now nlri nexthop).map sampleOf := by
  induction calls generalizing start with
  | nil =>
      obtain rfl := Except.ok.inj ran
      simp [liveEvents]
  | cons call rest ih =>
      obtain ⟨next, stepped, later⟩ := foldlM_cons_ok.mp ran
      obtain ⟨first, others⟩ := List.forall_mem_cons.mp ordered
      have split : liveEvents (call :: rest) now nlri nexthop =
          ((call.event? nlri nexthop).toList.filter fun event => InWindow now event.tsNs) ++
            liveEvents rest now nlri nexthop := by
        cases own : call.event? nlri nexthop with
        | none => simp [liveEvents, own]
        | some event => simp only [liveEvents, List.filterMap_cons_some own, Option.toList_some,
            ← List.filter_append, List.singleton_append]
      rw [ih others later, recent_step stepped first, recent_map_sampleOf, split, List.map_append,
        List.append_assoc]

/-- At the end of a history the samples in the window are those of its live events. -/
theorem recent_run {calls : List RttCall} {state : TcpRttAggregatorState} {now : UInt64}
    (ordered : ∀ call ∈ calls, call.now ≤ now) (ran : calls.foldlM step default = .ok state)
    (nlri : Nlri) (nexthop : Nexthop) :
    recent now (state.queue nlri nexthop) = (liveEvents calls now nlri nexthop).map sampleOf := by
  have fromStart := recent_from ordered ran nlri nexthop
  have empty : recent now (default.queue nlri nexthop) = [] := by simp [queue, default, recent]
  rwa [empty, List.nil_append] at fromStart

end TcpRttAggregatorState

/-! ## What a snapshot says of a window -/

/-- The sum that an average is taken of. -/
def totalSrtt (events : Multiset CTcpRttEvent) : ℕ :=
  (events.map fun event => event.srttUs.toNat).sum

/-- Count, floor of the mean, maximum and minimum over a set of events. -/
structure Summarises (events : Multiset CTcpRttEvent) (win : TcpRttWindow) : Prop where
  samples : win.samples = events.card
  avg : win.avgSrttUs.toNat = totalSrtt events / events.card
  max : ∃ event ∈ events, event.srttUs = win.maxSrttUs
  le_max : ∀ event ∈ events, event.srttUs ≤ win.maxSrttUs
  min : ∃ event ∈ events, event.rttMin = win.minRttMin
  min_le : ∀ event ∈ events, win.minRttMin ≤ event.rttMin

/-- No window for no events, else one that summarises them. -/
def Exact (events : Multiset CTcpRttEvent) : Option TcpRttWindow → Prop
  | none => events = 0
  | some win => events ≠ 0 ∧ Summarises events win

theorem Summarises.unique {events : Multiset CTcpRttEvent} {win win' : TcpRttWindow}
    (h : Summarises events win) (h' : Summarises events win') : win = win' := by
  obtain ⟨samples, avg, greatest, least⟩ := win
  obtain ⟨samples', avg', greatest', least'⟩ := win'
  have sameCount : samples = samples' := h.samples.trans h'.samples.symm
  have sameAvg : avg = avg' := UInt64.toNat_inj.mp (h.avg.trans h'.avg.symm)
  have sameMax : greatest = greatest' := by
    obtain ⟨event, member, attained⟩ := h.max
    obtain ⟨event', member', attained'⟩ := h'.max
    apply UInt32.le_antisymm
    · exact attained.symm.trans_le (h'.le_max event member)
    · exact attained'.symm.trans_le (h.le_max event' member')
  have sameMin : least = least' := by
    obtain ⟨event, member, attained⟩ := h.min
    obtain ⟨event', member', attained'⟩ := h'.min
    apply UInt32.le_antisymm
    · exact (h.min_le event' member').trans_eq attained'
    · exact (h'.min_le event member).trans_eq attained
  rw [sameCount, sameAvg, sameMax, sameMin]

theorem Exact.unique {events : Multiset CTcpRttEvent} {result result' : Option TcpRttWindow}
    (h : Exact events result) (h' : Exact events result') : result = result' := by
  cases result with
  | none =>
      cases result' with
      | none => rfl
      | some win' => exact absurd h h'.1
  | some win =>
      cases result' with
      | none => exact absurd h' h.1
      | some win' => rw [h.2.unique h'.2]

namespace TcpRttWindow

private theorem sumSrtt_eq (samples : List TcpRttSample) (acc : UInt64) :
    sumSrtt samples acc =
      if acc.toNat + (samples.map (·.srttUs.toNat)).sum < 2 ^ 64 then
        .ok (UInt64.ofNat (acc.toNat + (samples.map (·.srttUs.toNat)).sum))
      else .error .addOverflow := by
  induction samples generalizing acc with
  | nil => simpa [sumSrtt] using acc.toNat_lt
  | cons sample rest ih =>
      simp only [sumSrtt, List.map_cons, List.sum_cons]
      by_cases fits : acc.toNat + sample.srttUs.toNat < 2 ^ 64
      · have added : (acc + sample.srttUs.toUInt64).toNat = acc.toNat + sample.srttUs.toNat := by
          rw [UInt64.toNat_add, UInt32.toNat_toUInt64, Nat.mod_eq_of_lt fits]
        rw [if_pos fits, ih, added, add_assoc]
      · rw [if_neg fits, if_neg (by omega)]

private instance : Std.LawfulOrderMax UInt32 where
  max_eq_or a b := by
    change (if a ≤ b then b else a) = a ∨ (if a ≤ b then b else a) = b
    split
    · exact .inr rfl
    · exact .inl rfl
  max_le_iff a b c := by
    change (if a ≤ b then b else a) ≤ c ↔ _
    simp only [UInt32.le_iff_toNat_le]
    split <;> omega

private theorem exists_max (values : List UInt32) (nonempty : values ≠ []) :
    ∃ greatest, values.max?.getD 0 = greatest ∧ greatest ∈ values ∧ ∀ v ∈ values, v ≤ greatest := by
  cases found : values.max? with
  | none => exact absurd (List.max?_eq_none_iff.mp found) nonempty
  | some greatest => exact ⟨greatest, rfl, List.max?_eq_some_iff.mp found⟩

private theorem exists_min (values : List UInt32) (nonempty : values ≠ []) :
    ∃ least, values.min?.getD 0 = least ∧ least ∈ values ∧ ∀ v ∈ values, least ≤ v := by
  cases found : values.min? with
  | none => exact absurd (List.min?_eq_none_iff.mp found) nonempty
  | some least => exact ⟨least, rfl, List.min?_eq_some_iff.mp found⟩

private theorem sumSrtt_sampleOf (events : List CTcpRttEvent) :
    sumSrtt (events.map sampleOf) 0 =
      if totalSrtt events < 2 ^ 64 then .ok (UInt64.ofNat (totalSrtt events))
      else .error .addOverflow := by
  have total : (0 : UInt64).toNat + ((events.map sampleOf).map (·.srttUs.toNat)).sum =
      totalSrtt events := by
    simp [totalSrtt, sampleOf, Function.comp_def]
  rw [sumSrtt_eq, total]

theorem fromSamples_overflow {events : List CTcpRttEvent} (large : 2 ^ 64 ≤ totalSrtt events) :
    fromSamples (events.map sampleOf) = .error .addOverflow := by
  have nonempty : events.map sampleOf ≠ [] := by
    rintro empty
    obtain rfl := List.map_eq_nil_iff.mp empty
    exact absurd large (by decide)
  simp only [fromSamples, if_neg nonempty, sumSrtt_sampleOf, if_neg (not_lt.mpr large), bind,
    Except.bind]

/-- The window of a queue summarises the events whose samples are in it. -/
theorem fromSamples_summarises {events : List CTcpRttEvent} (nonempty : events ≠ [])
    (fits : totalSrtt events < 2 ^ 64) :
    ∃ win, fromSamples (events.map sampleOf) = .ok win ∧ Summarises events win := by
  have nonemptySamples : events.map sampleOf ≠ [] := by simpa using nonempty
  simp only [fromSamples, if_neg nonemptySamples, sumSrtt_sampleOf, if_pos fits, bind, Except.bind]
  refine ⟨_, rfl, ?_⟩
  have srtts : (events.map sampleOf).map (·.srttUs) = events.map (·.srttUs) := by
    simp [sampleOf, Function.comp_def]
  have mins : (events.map sampleOf).map (·.rttMin) = events.map (·.rttMin) := by
    simp [sampleOf, Function.comp_def]
  obtain ⟨greatest, isMax, attained, above⟩ := exists_max (events.map (·.srttUs)) (by simpa)
  obtain ⟨least, isMin, reached, below⟩ := exists_min (events.map (·.rttMin)) (by simpa)
  rw [srtts, mins, isMax, isMin]
  constructor
  case samples => simp
  case avg =>
    have quotient : totalSrtt events / events.length < 2 ^ 64 :=
      (Nat.div_le_self _ _).trans_lt fits
    simp only [List.length_map, UInt64.toNat_ofNat', Nat.mod_eq_of_lt fits,
      Nat.mod_eq_of_lt quotient, Multiset.coe_card]
  case max => simpa using attained
  case le_max => simpa using above
  case min => simpa using reached
  case min_le => simpa using below

end TcpRttWindow

namespace TcpRttAggregatorState

private theorem get?_pruned (state : TcpRttAggregatorState) (now : UInt64) (nlri : Nlri)
    (nexthop : Nexthop) :
    ((state.prune now).samples.get? nlri).bind (·.get? nexthop) =
      if recent now (state.queue nlri nexthop) = [] then none
      else some (recent now (state.queue nlri nexthop)) := by
  rw [get?_samples, queue_prune]

/-- A snapshot returns when every window does. -/
private theorem snapshot_ok_iff (state : TcpRttAggregatorState) (now : UInt64) :
    (∃ result, state.snapshot now = .ok result) ↔
      ∀ nlri nexthop, ∃ win,
        TcpRttWindow.fromSamples (recent now (state.queue nlri nexthop)) = .ok win := by
  have returns : (∃ result, state.snapshot now = .ok result) ↔ ∃ windows,
      ((state.prune now).samples.traverse fun byNexthop =>
        byNexthop.traverse TcpRttWindow.fromSamples) = .ok windows := by
    simp only [snapshot, bind, Except.bind]
    cases (state.prune now).samples.traverse fun byNexthop =>
      byNexthop.traverse TcpRttWindow.fromSamples with
    | error panic => simp
    | ok windows => simp
  rw [returns, FiniteMap.traverse_ok_iff]
  simp only [FiniteMap.traverse_ok_iff]
  constructor
  · intro all nlri nexthop
    by_cases gone : recent now (state.queue nlri nexthop) = []
    · rw [gone]
      exact ⟨_, rfl⟩
    · have found := get?_pruned state now nlri nexthop
      rw [if_neg gone] at found
      obtain ⟨byNexthop, present, queued⟩ := Option.bind_eq_some_iff.mp found
      exact all nlri byNexthop present nexthop _ queued
  · intro all nlri byNexthop present nexthop queue queued
    have found := get?_pruned state now nlri nexthop
    rw [present, Option.bind_some, queued] at found
    split at found
    · cases found
    · rw [Option.some.inj found]
      exact all nlri nexthop

/-- The windows of a snapshot are those of the queues it finds. -/
private theorem window?_snapshot {state after : TcpRttAggregatorState} {now : UInt64}
    {snap : TcpRttSnapshot} (taken : state.snapshot now = .ok (snap, after)) (nlri : Nlri)
    (nexthop : Nexthop) :
    window? snap nlri nexthop =
      if recent now (state.queue nlri nexthop) = [] then none
      else (TcpRttWindow.fromSamples (recent now (state.queue nlri nexthop))).toOption := by
  simp only [snapshot, bind, Except.bind] at taken
  split at taken
  · cases taken
  · rename_i windows traversed
    cases taken
    have found := get?_pruned state now nlri nexthop
    simp only [window?, FiniteMap.get?_traverse traversed]
    cases present : (state.prune now).samples.get? nlri with
    | none =>
        rw [present, Option.bind_none] at found
        split at found
        · rename_i gone
          rw [if_pos gone]
          rfl
        · cases found
    | some byNexthop =>
        rw [present, Option.bind_some] at found
        obtain ⟨inner, ok⟩ := FiniteMap.traverse_ok_iff.mp ⟨_, traversed⟩ nlri byNexthop present
        simp only [Option.bind_some, ok, Except.toOption, FiniteMap.get?_traverse ok, found]
        split <;> rfl

/-- A sample that is still in the window when the snapshot is taken shows in it. -/
theorem exists_window {calls : List RttCall} {start state after : TcpRttAggregatorState}
    {now : UInt64} {snap : TcpRttSnapshot} {nlri : Nlri} {nexthop : Nexthop}
    (ordered : ∀ call ∈ calls, call.now ≤ now) (ran : calls.foldlM step start = .ok state)
    (live : ∃ sample ∈ start.queue nlri nexthop, InWindow now sample.tsNs)
    (taken : state.snapshot now = .ok (snap, after)) :
    ∃ win, window? snap nlri nexthop = some win := by
  obtain ⟨sample, queued, inside⟩ := live
  have kept : recent now (state.queue nlri nexthop) ≠ [] := by
    rw [recent_from ordered ran]
    have member : sample ∈ recent now (start.queue nlri nexthop) :=
      List.mem_filter.mpr ⟨queued, by simpa using inside⟩
    exact List.ne_nil_of_mem (List.mem_append_left _ member)
  obtain ⟨win, built⟩ := (snapshot_ok_iff state now).mp ⟨_, taken⟩ nlri nexthop
  refine ⟨win, ?_⟩
  rw [window?_snapshot taken, if_neg kept, built]
  rfl

/-! ## Every snapshot is exact -/

/-- A snapshot returns when no window of the history overflows. -/
private theorem snapshot_returns_iff {calls : List RttCall} {state : TcpRttAggregatorState}
    {now : UInt64} (readings : ∀ call ∈ calls, call.now ≤ now)
    (ran : calls.foldlM step default = .ok state) :
    (∃ result, state.snapshot now = .ok result) ↔
      ∀ nlri nexthop, totalSrtt (liveEvents calls now nlri nexthop) < 2 ^ 64 := by
  rw [snapshot_ok_iff]
  simp only [recent_run readings ran]
  constructor
  · intro all nlri nexthop
    by_contra large
    obtain ⟨win, built⟩ := all nlri nexthop
    rw [TcpRttWindow.fromSamples_overflow (not_lt.mp large)] at built
    cases built
  · intro fit nlri nexthop
    by_cases gone : liveEvents calls now nlri nexthop = []
    · rw [gone]
      exact ⟨_, rfl⟩
    · obtain ⟨win, built, -⟩ := TcpRttWindow.fromSamples_summarises gone (fit nlri nexthop)
      exact ⟨win, built⟩

/-- What a snapshot that returns says about an NLRI and nexthop fits their live events. -/
theorem exact_window? {calls : List RttCall} {state after : TcpRttAggregatorState} {now : UInt64}
    {snap : TcpRttSnapshot} (readings : ∀ call ∈ calls, call.now ≤ now)
    (ran : calls.foldlM step default = .ok state) (taken : state.snapshot now = .ok (snap, after))
    (nlri : Nlri) (nexthop : Nexthop) :
    Exact (liveEvents calls now nlri nexthop) (window? snap nlri nexthop) := by
  rw [window?_snapshot taken, recent_run readings ran]
  by_cases gone : liveEvents calls now nlri nexthop = []
  · rw [gone]
    rfl
  · have fits := (snapshot_returns_iff readings ran).mp ⟨_, taken⟩ nlri nexthop
    obtain ⟨win, built, summary⟩ := TcpRttWindow.fromSamples_summarises gone fits
    rw [if_neg (by simpa using gone), built]
    exact ⟨by simpa using gone, summary⟩

/-- The snapshot at the end of a history whose clock never went back. It returns
    unless the `u64` sum of some window overflows. It never summarises an empty
    queue, and what it says about an NLRI and nexthop is the one result that fits
    the multiset of their live events, whatever order these came in and whatever
    was pruned in between. -/
theorem snapshot_exact (calls : List RttCall) (now : UInt64) (state : TcpRttAggregatorState)
    (ordered : (calls.map RttCall.now ++ [now]).Pairwise (· ≤ ·))
    (ran : calls.foldlM step default = .ok state) :
    ((∃ result, state.snapshot now = .ok result) ↔
      ∀ nlri nexthop, totalSrtt (liveEvents calls now nlri nexthop) < 2 ^ 64) ∧
    Filled (state.prune now).samples ∧
    ∀ snap after, state.snapshot now = .ok (snap, after) → ∀ nlri nexthop result,
      Exact (liveEvents calls now nlri nexthop) result ↔ window? snap nlri nexthop = result := by
  have readings : ∀ call ∈ calls, call.now ≤ now := by
    intro call member
    exact (List.pairwise_append.mp ordered).2.2 call.now (List.mem_map_of_mem member) now
      List.mem_cons_self
  refine ⟨snapshot_returns_iff readings ran, (state.prune now).filled,
    fun snap after taken nlri nexthop result => ?_⟩
  have fitting := exact_window? readings ran taken nlri nexthop
  constructor
  · intro fits
    exact fitting.unique fits
  · rintro rfl
    exact fitting

private def lateSample : CTcpRttEvent :=
  ⟨.ofIpNet (.v4 (.clamped (.new 10 41 0 0) 24)), .ofIpAddr (.v4 (.new 192 0 2 1)), 3000000000, 30, 9⟩

private def earlySample : CTcpRttEvent :=
  ⟨.ofIpNet (.v4 (.clamped (.new 10 41 0 0) 24)), .ofIpAddr (.v4 (.new 192 0 2 1)), 1000000000, 21, 8⟩

/-- Two samples that arrive in the wrong order, around a snapshot. -/
private def reordered : List RttCall :=
  [.observe 4000000000 lateSample, .snapshot 5000000000, .observe 5000000000 earlySample]

theorem snapshot_exact_reordered :
    ∃ state, reordered.foldlM step default = .ok state ∧
      ∀ snap after, state.snapshot 12000000000 = .ok (snap, after) → ∀ nlri nexthop result,
        Exact (liveEvents reordered 12000000000 nlri nexthop) result ↔
          window? snap nlri nexthop = result := by
  have returns : (reordered.foldlM step default).isOk = true := by decide +kernel
  cases ran : reordered.foldlM step default with
  | error panic =>
      rw [ran] at returns
      cases returns
  | ok state =>
      have ordered : (reordered.map RttCall.now ++ [12000000000]).Pairwise (· ≤ ·) := by decide
      exact ⟨state, rfl, (snapshot_exact reordered 12000000000 state ordered ran).2.2⟩

/-! ### A window with too many samples -/

private def floodedNlri : Nlri := .v4 (.clamped (.new 10 41 0 0) 24)

private def floodedHop : Nexthop := .v4 (.new 192 0 2 1)

/-- A sample at the largest RTT a callback can report. -/
private def flood : CTcpRttEvent :=
  ⟨.ofIpNet floodedNlri, .ofIpAddr floodedHop, 0, 4294967295, 1⟩

private theorem run_flood (n : ℕ) (start : TcpRttAggregatorState) :
    ∃ state, (List.replicate n (RttCall.observe 0 flood)).foldlM step start = .ok state := by
  induction n generalizing start with
  | zero => exact ⟨start, rfl⟩
  | succ n ih =>
      obtain ⟨state, ran⟩ := ih (start.observe 0 flood).2
      exact ⟨state, foldlM_cons_ok.mpr ⟨_, rfl, ran⟩⟩

private theorem totalSrtt_flood (n : ℕ) :
    totalSrtt (liveEvents (List.replicate n (.observe 0 flood)) 0 floodedNlri floodedHop) =
      n * 4294967295 := by
  have own : (RttCall.observe 0 flood).event? floodedNlri floodedHop = some flood := by decide
  have live : InWindow 0 flood.tsNs := by decide
  have events : liveEvents (List.replicate n (.observe 0 flood)) 0 floodedNlri floodedHop =
      List.replicate n flood := by
    rw [liveEvents, List.filterMap_replicate_of_some own, List.filter_replicate_of_pos (by simpa)]
  have largest : flood.srttUs.toNat = 4294967295 := rfl
  rw [events, totalSrtt, Multiset.map_coe, Multiset.sum_coe, List.map_replicate, List.sum_replicate,
    smul_eq_mul, largest]

/-- Two more than four billion samples at the largest RTT make the sum overflow. -/
theorem flooded_snapshot_panics :
    ∃ state, (List.replicate 4294967298 (RttCall.observe 0 flood)).foldlM step default = .ok state ∧
      ¬ ∃ result, state.snapshot 0 = .ok result := by
  obtain ⟨state, ran⟩ := run_flood 4294967298 default
  refine ⟨state, ran, fun returned => ?_⟩
  have readings : ∀ call ∈ List.replicate 4294967298 (RttCall.observe 0 flood), call.now ≤ 0 := by
    intro call member
    rw [List.eq_of_mem_replicate member]
    exact UInt64.le_refl 0
  obtain ⟨win, built⟩ := (snapshot_ok_iff state 0).mp returned floodedNlri floodedHop
  have large : 2 ^ 64 ≤ totalSrtt (liveEvents (List.replicate 4294967298 (.observe 0 flood)) 0
      floodedNlri floodedHop) := by
    rw [totalSrtt_flood]
    norm_num
  rw [recent_run readings ran, TcpRttWindow.fromSamples_overflow large] at built
  cases built

end TcpRttAggregatorState

end Erez.Daemon
