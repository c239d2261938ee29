import Erez.Ebpf.Feedback
import Mathlib.Algebra.Order.Floor.Semifield

/-! # The unit of the cost

The kernel reports a smoothed RTT in eighths of a microsecond and a minimum RTT in
microseconds. Nothing between the callback and the gradient divides the first by
eight, so a window averages in one unit what it compares with a minimum in the other.
-/

namespace Erez.Ebpf

open Erez.Daemon Erez.Lib Descent

variable {Sock : Type*} {nlri : Nlri} {nexthop : Nexthop}

/-- An RTT callback of a socket that is stuck to an NLRI and nexthop, as userspace reads
    them back, with the times in microseconds that the kernel expresses in it. -/
structure RttCallback (Sock : Type*) (nlri : Nlri) (nexthop : Nexthop) where
  env : SockopsEnv
  maps : Maps Sock
  ops : SockOps Sock
  sock : Sock
  own : ops.sk = some sock
  sticky : SocketStickyNexthop
  stuck : maps.sticky sock = some sticky
  toNlri : IpNet.tryFrom sticky.matchedNlri = .ok nlri
  toNexthop : IpAddr.ofCIpv6Addr sticky.nexthop = nexthop
  event : CTcpRttEvent
  emitted : (erezSockops env maps ops).1 = some event
  srtt : ℚ
  eighths : (ops.srttUs.toNat : ℚ) = 8 * srtt
  minRtt : ℕ
  whole : ops.rttMin.toNat = minRtt

namespace RttCallback

theorem event_eq (callback : RttCallback Sock nlri nexthop) :
    callback.event = ⟨callback.sticky.matchedNlri, callback.sticky.nexthop,
      callback.env.ktimeGetNs, callback.ops.srttUs, callback.ops.rttMin⟩ := by
  obtain ⟨sock, sticky, own, stored, made⟩ := erezSockops_event callback.emitted
  have sameSock : callback.sock = sock := Option.some.inj (callback.own.symm.trans own)
  subst sameSock
  have sameSticky : callback.sticky = sticky := Option.some.inj (callback.stuck.symm.trans stored)
  rw [made, sameSticky]

theorem rttMin_event (callback : RttCallback Sock nlri nexthop) :
    callback.event.rttMin.toNat = callback.minRtt := by
  rw [callback.event_eq]
  exact callback.whole

end RttCallback

/-- A snapshot that is taken while these callbacks are what the window of their NLRI and
    nexthop holds, whatever else the history has in it. -/
structure Observed (callbacks : List (RttCallback Sock nlri nexthop)) where
  calls : List RttCall
  now : UInt64
  readings : ∀ call ∈ calls, call.now ≤ now
  state : TcpRttAggregatorState
  ran : calls.foldlM TcpRttAggregatorState.step .default = .ok state
  live : liveEvents calls now nlri nexthop = callbacks.map (·.event)
  snap : TcpRttSnapshot
  after : TcpRttAggregatorState
  taken : state.snapshot now = .ok (snap, after)

section Microseconds

variable (callbacks : List (RttCallback Sock nlri nexthop))

/-- The mean of the smoothed RTTs, in microseconds. -/
def meanSrtt : ℚ :=
  (callbacks.map (·.srtt)).sum / callbacks.length

/-- The least of the minimum RTTs, in microseconds. -/
def leastRtt : ℕ :=
  ((callbacks.map (·.minRtt)).min?).getD 0

/-- The latency and what it has above the least RTT, both in microseconds. -/
def microsecondCost : ℚ :=
  let latency : ℚ := ⌊meanSrtt callbacks⌋₊
  latency + max 0 (latency - leastRtt callbacks)

variable {callbacks}

/-- The gradient of the window is the cost in microseconds; there is no congestion on a
    path that always takes its least RTT. -/
def Observed.InMicroseconds (observed : Observed callbacks) : Prop :=
  ∃ win, window? observed.snap nlri nexthop = some win ∧
    gradient win = microsecondCost callbacks ∧
    ((∀ callback ∈ callbacks, callback.srtt = leastRtt callbacks) →
      win.avgSrttUs.toNat - win.minRttMin.toNat = 0)

theorem eight_mul_sum_srtt :
    8 * (callbacks.map (·.srtt)).sum = ((callbacks.map (·.ops.srttUs.toNat)).sum : ℕ) := by
  induction callbacks with
  | nil => simp
  | cons callback rest ih =>
      simp only [List.map_cons, List.sum_cons, Nat.cast_add, mul_add, ih, callback.eighths]

/-- The floor of the mean, from the values that the callbacks report. -/
theorem floor_meanSrtt :
    ⌊meanSrtt callbacks⌋₊ =
      (callbacks.map (·.ops.srttUs.toNat)).sum / callbacks.length / 8 := by
  have mean : meanSrtt callbacks =
      ((callbacks.map (·.ops.srttUs.toNat)).sum : ℕ) / ((callbacks.length * 8 : ℕ) : ℚ) := by
    rw [← eight_mul_sum_srtt, meanSrtt, Nat.cast_mul, Nat.cast_ofNat, mul_comm (8 : ℚ),
      mul_div_mul_right _ _ (by norm_num)]
  rw [mean, Nat.floor_div_eq_div, Nat.div_div_eq_div_mul]

theorem leastRtt_eq {least : ℕ} (attained : ∃ callback ∈ callbacks, callback.minRtt = least)
    (below : ∀ callback ∈ callbacks, least ≤ callback.minRtt) : leastRtt callbacks = least := by
  have minimum : (callbacks.map (·.minRtt)).min? = some least := by
    rw [List.min?_eq_some_iff]
    exact ⟨by simpa using attained, by simpa using below⟩
  rw [leastRtt, minimum, Option.getD_some]

/-- The window that the callbacks leave. -/
theorem Observed.window (observed : Observed callbacks) (nonempty : callbacks ≠ []) :
    ∃ win, window? observed.snap nlri nexthop = some win ∧
      win.avgSrttUs.toNat = (callbacks.map (·.ops.srttUs.toNat)).sum / callbacks.length ∧
      win.minRttMin.toNat = leastRtt callbacks := by
  have fits := TcpRttAggregatorState.exact_window? observed.readings observed.ran observed.taken
    nlri nexthop
  rw [observed.live] at fits
  cases found : window? observed.snap nlri nexthop with
  | none =>
      rw [found] at fits
      exact absurd fits (by simpa [Exact] using nonempty)
  | some win =>
      rw [found] at fits
      obtain ⟨-, summary⟩ := fits
      have total : totalSrtt (callbacks.map (·.event) : List CTcpRttEvent) =
          (callbacks.map (·.ops.srttUs.toNat)).sum := by
        have same : ∀ callback ∈ callbacks,
            callback.event.srttUs.toNat = callback.ops.srttUs.toNat := by
          intro callback _
          rw [callback.event_eq]
        simp only [totalSrtt, Multiset.map_coe, Multiset.sum_coe, List.map_map, Function.comp_def]
        rw [List.map_congr_left same]
      refine ⟨win, rfl, ?_, ?_⟩
      · rw [summary.avg, total, Multiset.coe_card, List.length_map]
      · refine (leastRtt_eq ?_ ?_).symm
        · obtain ⟨event, member, reached⟩ := summary.min
          obtain ⟨callback, listed, made⟩ := List.mem_map.mp (Multiset.mem_coe.mp member)
          exact ⟨callback, listed, by rw [← callback.rttMin_event, made, reached]⟩
        · intro callback listed
          rw [← callback.rttMin_event]
          have member : callback.event ∈ (callbacks.map (·.event) : Multiset CTcpRttEvent) :=
            Multiset.mem_coe.mpr (List.mem_map_of_mem listed)
          exact UInt32.le_iff_toNat_le.mp (summary.min_le callback.event member)

theorem cast_sub_eq_max (a b : ℕ) : ((a - b : ℕ) : ℚ) = max 0 ((a : ℚ) - b) := by
  cases le_total a b with
  | inl le => simp [Nat.sub_eq_zero_of_le le, le]
  | inr ge => simp [Nat.cast_sub ge, ge]

/-- The costs agree only where both are nothing. -/
theorem Observed.in_microseconds_iff (observed : Observed callbacks) (nonempty : callbacks ≠ []) :
    observed.InMicroseconds ↔
      (callbacks.map (·.ops.srttUs.toNat)).sum < callbacks.length := by
  obtain ⟨win, found, avg, least⟩ := observed.window nonempty
  have some_ : 0 < callbacks.length := List.length_pos_iff.mpr nonempty
  have cost : microsecondCost callbacks = ((win.avgSrttUs.toNat / 8 +
      (win.avgSrttUs.toNat / 8 - win.minRttMin.toNat) : ℕ) : ℚ) := by
    simp only [microsecondCost]
    rw [floor_meanSrtt, ← avg, ← least, ← cast_sub_eq_max, Nat.cast_add]
  have same : gradient win = microsecondCost callbacks ↔ win.avgSrttUs.toNat = 0 := by
    simp only [cost, Descent.gradient]
    rw [← Nat.cast_add, Nat.cast_inj]
    omega
  have nothing : win.avgSrttUs.toNat = 0 ↔
      (callbacks.map (·.ops.srttUs.toNat)).sum < callbacks.length := by
    rw [avg, Nat.div_eq_zero_iff]
    omega
  rw [← nothing]
  constructor
  · intro inUnit
    obtain ⟨win', found', equal, -⟩ := inUnit
    have itself : win = win' := Option.some.inj (found.symm.trans found')
    subst itself
    exact same.mp equal
  · intro zero
    exact ⟨win, found, same.mpr zero, fun _ => by rw [zero, Nat.zero_sub]⟩

end Microseconds

/-! ## Two paths -/

private def pathNlri : Nlri := .v4 (.clamped (.new 203 0 113 0) 24)

private def pathHop : Nexthop := .v4 (.new 192 0 2 61)

private def pathSticky : SocketStickyNexthop := ⟨.ofIpNet pathNlri, .ofIpAddr pathHop⟩

/-- A callback five seconds after boot that reports these two values. -/
private def callbackOf (values : UInt32 × UInt32) : RttCallback ℕ pathNlri pathHop where
  env := ⟨true, fun _ => true, true, 5000000000⟩
  maps := ⟨∅, fun _ => some pathSticky, Metrics.zero⟩
  ops := ⟨.rttCb, afInet, #v[203, 0, 113, 9], Vector.replicate 16 0, 0, some 7, values.1, values.2⟩
  sock := 7
  own := rfl
  sticky := pathSticky
  stuck := rfl
  toNlri := by decide
  toNexthop := by decide
  event := ⟨.ofIpNet pathNlri, .ofIpAddr pathHop, 5000000000, values.1, values.2⟩
  emitted := rfl
  srtt := values.1.toNat / 8
  eighths := by ring
  minRtt := values.2.toNat
  whole := rfl

private def heard (values : List (UInt32 × UInt32)) : List RttCall :=
  values.map fun pair => .observe 5000000000 (callbackOf pair).event

private def snapshotOf (values : List (UInt32 × UInt32)) :
    Except Panic (TcpRttSnapshot × TcpRttAggregatorState) := do
  let state ← (heard values).foldlM TcpRttAggregatorState.step .default
  state.snapshot 5000000000

private theorem live_heard (values : List (UInt32 × UInt32)) :
    liveEvents (heard values) 5000000000 pathNlri pathHop =
      (values.map callbackOf).map (·.event) := by
  have own (pair : UInt32 × UInt32) :
      (RttCall.observe 5000000000 (callbackOf pair).event).event? pathNlri pathHop =
        some (callbackOf pair).event :=
    if_pos ⟨(callbackOf pair).toNlri, (callbackOf pair).toNexthop⟩
  have inside (pair : UInt32 × UInt32) : InWindow 5000000000 (callbackOf pair).event.tsNs := by
    simp [InWindow, callbackOf]
  induction values with
  | nil => rfl
  | cons pair rest ih =>
      simp only [liveEvents, heard, List.map_cons] at ih ⊢
      rw [List.filterMap_cons_some (own pair), List.filter_cons_of_pos (by simpa using inside pair), ih]

private theorem exists_observed (values : List (UInt32 × UInt32)) (win : Option TcpRttWindow)
    (shown : (snapshotOf values).toOption.map (fun result => window? result.1 pathNlri pathHop) =
      some win) :
    ∃ observed : Observed (values.map callbackOf),
      window? observed.snap pathNlri pathHop = win := by
  obtain ⟨result, returned, shows⟩ := Option.map_eq_some_iff.mp shown
  cases taken : snapshotOf values with
  | error panic => simp [taken, Except.toOption] at returned
  | ok pair =>
      have same : pair = result := by simpa [taken, Except.toOption] using returned
      subst same
      simp only [snapshotOf, bind, Except.bind] at taken
      split at taken
      · cases taken
      · rename_i state ran
        have readings : ∀ call ∈ heard values, call.now ≤ 5000000000 := by
          intro call member
          obtain ⟨_, -, made⟩ := List.mem_map.mp member
          rw [← made]
          exact UInt64.le_refl _
        exact ⟨⟨heard values, 5000000000, readings, state, ran, live_heard values, pair.1, pair.2,
          taken⟩, shows⟩

/-- A path that always takes 100 ms costs as much as one of 100 ms with 1.4 s of congestion. -/
theorem steady_path_congested :
    ∃ (callbacks : List (RttCallback ℕ pathNlri pathHop)) (observed : Observed callbacks),
      callbacks ≠ [] ∧
      (∀ callback ∈ callbacks, callback.srtt = 100000 ∧ callback.minRtt = 100000) ∧
      microsecondCost callbacks = 100000 ∧
      (window? observed.snap pathNlri pathHop).map gradient = some 1500000 ∧
      ¬ observed.InMicroseconds := by
  obtain ⟨observed, shows⟩ := exists_observed [(800000, 100000)]
    (some ⟨1, 800000, 800000, 100000⟩) (by decide +kernel)
  have cost : microsecondCost ([(800000, 100000)].map callbackOf) = 100000 := by
    have latency : ⌊meanSrtt ([(800000, 100000)].map callbackOf)⌋₊ = 100000 := by
      rw [floor_meanSrtt]
      decide
    have least : leastRtt ([(800000, 100000)].map callbackOf) = 100000 := by decide
    simp only [microsecondCost]
    rw [latency, least]
    norm_num
  have charged : gradient ⟨1, 800000, 800000, 100000⟩ = 1500000 := by
    simp only [Descent.gradient, UInt64.reduceToNat, UInt32.reduceToNat]
    norm_num
  refine ⟨_, observed, by simp, ?_, cost, by rw [shows, Option.map_some, charged], ?_⟩
  · intro callback listed
    have only : callback = callbackOf (800000, 100000) := by simpa using listed
    subst only
    have eighth : (callbackOf (800000, 100000)).srtt = 100000 := by
      simp only [callbackOf, UInt32.reduceToNat]
      norm_num
    exact ⟨eighth, rfl⟩
  · intro inUnit
    obtain ⟨win, found, equal, -⟩ := inUnit
    have itself : ⟨1, 800000, 800000, 100000⟩ = win := Option.some.inj (shows.symm.trans found)
    rw [← itself, charged, cost] at equal
    norm_num at equal

/-- Two callbacks on one host, the second of which reports the smallest RTT there is. -/
theorem in_microseconds_of_no_latency :
    ∃ observed : Observed ([(0, 0), (1, 0)].map callbackOf), observed.InMicroseconds := by
  obtain ⟨observed, -⟩ := exists_observed [(0, 0), (1, 0)] (some ⟨2, 0, 1, 0⟩)
    (by decide +kernel)
  exact ⟨observed, (observed.in_microseconds_iff (by simp)).mpr (by decide)⟩

end Erez.Ebpf
