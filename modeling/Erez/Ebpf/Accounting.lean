import Erez.Ebpf.Decap
import Erez.Ebpf.Sockops
import Erez.Lib.Run

/-! # Packet accounting

Each run of a program leaves a trail of counters. The trails are finitely many, and
in each of them what was counted on entry is counted once more as an outcome, so
the sums of the two sides move together along any sequence of runs, whatever the
helpers answer and whatever happens to the other maps in between.
-/

namespace Erez.Ebpf

open Erez.Daemon Erez.Lib Metrics

/-! ## The trails of each program -/

/-- Without a nexthop: no FIB entry, or an invalid one. -/
def refusalTrails : List (List Counter) :=
  [.encapStickyNexthopTotalMiss, .encapFibMissesTotal] ::
    validationCounters.map ([.encapStickyNexthopTotalMiss, .encapFibHitsTotal, ·])

/-- With a nexthop: the socket's own, or one that is stored for it if that works. -/
def choiceTrails : List (List Counter) :=
  [[.encapStickyNexthopTotalHit], [.encapStickyNexthopTotalMiss, .encapFibHitsTotal],
    [.encapStickyNexthopTotalMiss, .encapFibHitsTotal, .encapStickyNexthopTotalStore]]

def encapTrails : List (List Counter) :=
  [] :: encapParseExits.map ([.encapProcessedPacketsTotal, ·]) ++
    refusalTrails.map (.encapProcessedPacketsTotal :: ·) ++
    choiceTrails.flatMap fun trail =>
      [.encapProcessedPacketsTotal :: trail ++ [.encapErrorsTotalEncapFailed],
        .encapProcessedPacketsTotal :: trail ++ [.encapEncapsulatedPacketsTotal]]

def decapParseExits : List Counter :=
  [.decapParseErrorsTotalShortPacket, .decapSkippedPacketsTotalUnsupportedOuterL3Proto,
    .decapSkippedPacketsTotalUnsupportedOuterL4Proto,
    .decapSkippedPacketsTotalUnsupportedInnerL3Proto]

def forwardExits : List Counter :=
  [.decapErrorsTotalFibLookupFailed, .decapErrorsTotalDecrementInnerTtlFailed,
    .decapErrorsTotalSameIfindex, .decapErrorsTotalRedirectFailed, .decapRedirectedPacketsTotal]

def decapTrails : List (List Counter) :=
  [] :: (decapParseExits ++ [Counter.decapErrorsTotalDecapFailed]).map
      ([.decapProcessedPacketsTotal, ·]) ++
    forwardExits.map ([.decapProcessedPacketsTotal, .decapDecapsulatedPacketsTotal, ·])

def rttExits : List Counter :=
  [.sockopsRttSkippedTotalUnsupportedFamily, .sockopsRttSkippedTotalStickyNexthopMiss,
    .sockopsRttEventDropsTotalRingbufFull, .sockopsRttEventsTotal]

def sockopsTrails : List (List Counter) :=
  [[], [.sockopsRttCallbackRegistrationsTotalSuccess],
    [.sockopsRttCallbackRegistrationsTotalFailed]] ++
    rttExits.map ([.sockopsRttCallbacksTotal, ·])

/-- The counters moved along one of the trails. -/
def Follows (trails : List (List Counter)) (before after : Metrics) : Prop :=
  ∃ trail ∈ trails, after = before.bumpAll trail

section Programs

variable {Sock : Type*}

theorem metrics_store [DecidableEq Sock] (env : EncapEnv) (maps : Maps Sock) (sk : Option Sock)
    (sticky : SocketStickyNexthop) :
    (socketStickyNexthopStore env maps sk sticky).2.metrics = maps.metrics := by
  rcases store_cases env maps sk sticky with same | ⟨sock, -, created⟩
  · rw [same]
  · rw [created]

theorem follows_choice [DecidableEq Sock] {env : EncapEnv} {maps after : Maps Sock}
    {sk : Option Sock} {dest : CNlri} {chosen : Option CIpv6Addr}
    (choice : Choice env maps sk dest chosen after) :
    Follows (if chosen.isSome then choiceTrails else refusalTrails) maps.metrics
      after.metrics := by
  cases choice with
  | own stored => exact ⟨_, List.mem_cons_self, rfl⟩
  | missed unstored absent => exact ⟨_, List.mem_cons_self, rfl⟩
  | refused unstored found invalid =>
      exact ⟨_, List.mem_cons_of_mem _ (List.mem_map_of_mem invalid), rfl⟩
  | @selected entry nexthop success after unstored found inUse stored =>
      have counted := metrics_store env
        ((maps.bump .encapStickyNexthopTotalMiss).bump .encapFibHitsTotal) sk
        ⟨entry.matchedNlri, nexthop⟩
      rw [stored] at counted
      simp only [Option.isSome_some, if_true]
      cases success with
      | false =>
          exact ⟨[.encapStickyNexthopTotalMiss, .encapFibHitsTotal], by decide, counted⟩
      | true =>
          refine ⟨[.encapStickyNexthopTotalMiss, .encapFibHitsTotal,
            .encapStickyNexthopTotalStore], by decide, ?_⟩
          exact congrArg (bump · .encapStickyNexthopTotalStore) counted

theorem follows_erezEncap [DecidableEq Sock] (env : EncapEnv) (maps : Maps Sock)
    (skb : Skb Sock) : Follows encapTrails maps.metrics (erezEncap env maps skb).maps.metrics := by
  have steered : ∀ {trail}, trail ∈ choiceTrails → ∀ outcome ∈ [.encapErrorsTotalEncapFailed,
      .encapEncapsulatedPacketsTotal],
      .encapProcessedPacketsTotal :: trail ++ [outcome] ∈ encapTrails := by
    intro trail listed outcome final
    refine List.mem_append_right _ (List.mem_flatMap.mpr ⟨trail, listed, ?_⟩)
    rcases List.mem_pair.mp final with rfl | rfl
    · exact List.mem_cons_self
    · exact List.mem_cons_of_mem _ List.mem_cons_self
  have ends : ∀ {after : Maps Sock} {trail} (outcome : Counter),
      after.metrics = (maps.bump .encapProcessedPacketsTotal).metrics.bumpAll trail →
      (after.bump outcome).metrics =
        maps.metrics.bumpAll (.encapProcessedPacketsTotal :: trail ++ [outcome]) := by
    intro after trail outcome moved
    rw [bumpAll_append]
    exact congrArg (bump · outcome) moved
  have outcome := outcome_erezEncap env maps skb
  generalize erezEncap env maps skb = result at outcome ⊢
  cases outcome with
  | uncounted => exact ⟨[], List.mem_cons_self, rfl⟩
  | @skipped exit act listed =>
      refine ⟨[.encapProcessedPacketsTotal, exit], ?_, rfl⟩
      exact List.mem_append_left _ (List.mem_append_left _
        (List.mem_cons_of_mem _ (List.mem_map_of_mem listed)))
  | unsteered dest choice =>
      obtain ⟨trail, listed, moved⟩ := follows_choice choice
      refine ⟨.encapProcessedPacketsTotal :: trail, ?_, moved⟩
      exact List.mem_append_left _ (List.mem_append_right _ (List.mem_map_of_mem listed))
  | failed dest choice _ =>
      obtain ⟨trail, listed, moved⟩ := follows_choice choice
      exact ⟨_, steered listed _ (by decide), ends _ moved⟩
  | encapsulated dest choice protocol wrapped =>
      obtain ⟨trail, listed, moved⟩ := follows_choice choice
      exact ⟨_, steered listed _ (by decide), ends _ moved⟩

theorem follows_decapPktParse (data : Frame) (metrics : Metrics) :
    (∃ exit ∈ decapParseExits, ∃ act,
      decapPktParse data metrics = (.error act, metrics.bump exit)) ∨
    ∃ pkt, decapPktParse data metrics = (.ok pkt, metrics) := by
  unfold decapPktParse
  split
  · split
    · exact .inl ⟨_, by decide, _, rfl⟩
    · split
      · exact .inl ⟨_, by decide, _, rfl⟩
      · split
        · exact .inl ⟨_, by decide, _, rfl⟩
        · exact .inr ⟨_, rfl⟩
  · exact .inl ⟨_, by decide, _, rfl⟩

/-- Every way out of forwarding is counted: the frame was long enough for its time to
    live to be decremented, so it is long enough for its addresses to be rewritten. -/
theorem follows_forward (env : DecapEnv) (ctx : XdpMd) (pkt : DecapPacket) (metrics : Metrics) :
    ∃ exit ∈ forwardExits,
      (decapPktForwardToNexthop env ctx pkt metrics).metrics = metrics.bump exit := by
  unfold decapPktForwardToNexthop
  cases env.fibLookup ⟨ctx.ingressIfindex, .ofCIpv6Addr pkt.nexthop⟩ with
  | none => exact ⟨_, by decide, rfl⟩
  | some route =>
      simp only
      cases decremented : decapPktDecrementInnerTtl ctx.data pkt.innerL3Proto with
      | none => exact ⟨_, by decide, rfl⟩
      | some data =>
          have long : ¬ ethHdrLen > data.length := by
            obtain ⟨same, whole⟩ := decrementInnerTtl_length decremented
            rw [same]
            exact not_lt.mpr whole
          simp only [if_neg long]
          split
          · exact ⟨_, by decide, rfl⟩
          · split
            · exact ⟨_, by decide, rfl⟩
            · exact ⟨_, by decide, rfl⟩

theorem follows_erezDecap (env : DecapEnv) (ctx : XdpMd) (metrics : Metrics) :
    Follows decapTrails metrics (erezDecap env ctx metrics).metrics := by
  unfold erezDecap
  by_cases found : env.metricsFound = true
  swap
  · rw [if_pos found]
    exact ⟨[], List.mem_cons_self, rfl⟩
  rw [if_neg (not_not.mpr found)]
  simp only
  have early : ∀ exit ∈ decapParseExits ++ [Counter.decapErrorsTotalDecapFailed],
      [.decapProcessedPacketsTotal, exit] ∈ decapTrails := fun exit listed =>
    List.mem_append_left _ (List.mem_cons_of_mem _ (List.mem_map_of_mem listed))
  rcases follows_decapPktParse ctx.data (metrics.bump .decapProcessedPacketsTotal) with
    ⟨exit, listed, act, skipped⟩ | ⟨pkt, parsed⟩
  · simp only [skipped]
    exact ⟨_, early exit (List.mem_append_left _ listed), rfl⟩
  · simp only [parsed]
    cases decapPktDecapsulateIp6Gre env.adjustHead ctx.data pkt with
    | error data => exact ⟨_, early .decapErrorsTotalDecapFailed (by decide), rfl⟩
    | ok data =>
        obtain ⟨exit, listed, moved⟩ := follows_forward env { ctx with data } pkt
          ((metrics.bump .decapProcessedPacketsTotal).bump .decapDecapsulatedPacketsTotal)
        refine ⟨[.decapProcessedPacketsTotal, .decapDecapsulatedPacketsTotal, exit], ?_, moved⟩
        exact List.mem_append_right _ (List.mem_map_of_mem listed)

theorem follows_emitTcpRttEvent (env : SockopsEnv) (maps : Maps Sock) (ops : SockOps Sock) :
    ∃ exit ∈ rttExits, (emitTcpRttEvent env maps ops).2.metrics =
      maps.metrics.bumpAll [.sockopsRttCallbacksTotal, exit] := by
  unfold emitTcpRttEvent
  simp only
  split
  · exact ⟨_, by decide, rfl⟩
  · split
    · exact ⟨_, by decide, rfl⟩
    · split
      · exact ⟨_, by decide, rfl⟩
      · split
        · exact ⟨_, by decide, rfl⟩
        · exact ⟨_, by decide, rfl⟩

theorem follows_erezSockops (env : SockopsEnv) (maps : Maps Sock) (ops : SockOps Sock) :
    Follows sockopsTrails maps.metrics (erezSockops env maps ops).2.metrics := by
  unfold erezSockops
  split
  · exact ⟨[], by decide, rfl⟩
  · have registered : ∀ result, result = (if env.cbFlagsSet (ops.cbFlags ||| rttCbFlag) then
          ((none : Option CTcpRttEvent), maps.bump .sockopsRttCallbackRegistrationsTotalSuccess)
        else (none, maps.bump .sockopsRttCallbackRegistrationsTotalFailed)) →
        Follows sockopsTrails maps.metrics result.2.metrics := by
      rintro result rfl
      split
      · exact ⟨[.sockopsRttCallbackRegistrationsTotalSuccess], by decide, rfl⟩
      · exact ⟨[.sockopsRttCallbackRegistrationsTotalFailed], by decide, rfl⟩
    cases ops.op with
    | activeEstablishedCb => exact registered _ rfl
    | passiveEstablishedCb => exact registered _ rfl
    | rttCb =>
        obtain ⟨exit, listed, moved⟩ := follows_emitTcpRttEvent env maps ops
        exact ⟨_, List.mem_append_right _ (List.mem_map_of_mem listed), moved⟩
    | other => exact ⟨[], by decide, rfl⟩

end Programs

/-! ## Sums that move together -/

/-- What is counted on entry, and what it is counted as in the end. -/
structure Law where
  entered : List Counter
  left : List Counter

def laws : List Law :=
  [⟨[.encapProcessedPacketsTotal],
      encapParseExits ++ .encapFibMissesTotal :: validationCounters ++
        [.encapErrorsTotalEncapFailed, .encapEncapsulatedPacketsTotal]⟩,
    ⟨[.encapStickyNexthopTotalMiss], [.encapFibHitsTotal, .encapFibMissesTotal]⟩,
    ⟨[.decapProcessedPacketsTotal],
      decapParseExits ++ [.decapErrorsTotalDecapFailed, .decapDecapsulatedPacketsTotal]⟩,
    ⟨[.decapDecapsulatedPacketsTotal], forwardExits⟩,
    ⟨[.sockopsRttCallbacksTotal], rttExits⟩]

def Metrics.Obeys (metrics : Metrics) (law : Law) : Prop :=
  metrics.total law.entered = metrics.total law.left

private theorem balanced : ∀ trail ∈ encapTrails ++ decapTrails ++ sockopsTrails, ∀ law ∈ laws,
    trail.countP (· ∈ law.entered) = trail.countP (· ∈ law.left) := by
  decide +kernel

private theorem distinct : ∀ law ∈ laws, law.entered.Nodup ∧ law.left.Nodup := by
  decide +kernel

/-- A run of any of the programs keeps every law. -/
theorem obeys_follows {before after : Metrics}
    (moved : Follows (encapTrails ++ decapTrails ++ sockopsTrails) before after) {law : Law}
    (listed : law ∈ laws) (obeys : before.Obeys law) : after.Obeys law := by
  obtain ⟨trail, possible, rfl⟩ := moved
  obtain ⟨enteredDistinct, leftDistinct⟩ := distinct law listed
  rw [Metrics.Obeys, total_bumpAll before trail enteredDistinct,
    total_bumpAll before trail leftDistinct, balanced trail possible law listed]
  exact congrArg (· + _) obeys

/-! ## Runs -/

/-- A run of one of the programs, or anything that userspace and the kernel do to the
    FIB and to socket storage in the meantime. -/
inductive DataplaneEvent (Sock : Type*) where
  | encap (env : EncapEnv) (skb : Skb Sock)
  | decap (env : DecapEnv) (ctx : XdpMd)
  | sockops (env : SockopsEnv) (ops : SockOps Sock)
  | elsewhere (fib : Fib) (sticky : Sock → Option SocketStickyNexthop)

section Runs

variable {Sock : Type*} [DecidableEq Sock]

def Maps.handle (maps : Maps Sock) : DataplaneEvent Sock → Maps Sock
  | .encap env skb => (erezEncap env maps skb).maps
  | .decap env ctx => { maps with metrics := (erezDecap env ctx maps.metrics).metrics }
  | .sockops env ops => (erezSockops env maps ops).2
  | .elsewhere fib sticky => { maps with fib, sticky }

theorem follows_handle (maps : Maps Sock) (event : DataplaneEvent Sock) :
    Follows (encapTrails ++ decapTrails ++ sockopsTrails) maps.metrics
      (maps.handle event).metrics := by
  cases event with
  | encap env skb =>
      obtain ⟨trail, possible, moved⟩ := follows_erezEncap env maps skb
      exact ⟨trail, List.mem_append_left _ (List.mem_append_left _ possible), moved⟩
  | decap env ctx =>
      obtain ⟨trail, possible, moved⟩ := follows_erezDecap env ctx maps.metrics
      exact ⟨trail, List.mem_append_left _ (List.mem_append_right _ possible), moved⟩
  | sockops env ops =>
      obtain ⟨trail, possible, moved⟩ := follows_erezSockops env maps ops
      exact ⟨trail, List.mem_append_right _ possible, moved⟩
  | elsewhere fib sticky => exact ⟨[], by decide, rfl⟩

theorem obeys_run {start : Maps Sock} {law : Law} (listed : law ∈ laws)
    (obeys : start.metrics.Obeys law) (events : List (DataplaneEvent Sock)) :
    (events.foldl Maps.handle start).metrics.Obeys law := by
  refine foldl_invariant (fun maps : Maps Sock => maps.metrics.Obeys law) (fun _ _ => True) ?_ obeys
    fun _ _ _ => trivial
  intro maps event obeys _
  exact obeys_follows (follows_handle maps event) listed obeys

/-- Every packet and every callback is accounted for once. -/
structure Conserved (metrics : Metrics) : Prop where
  encapsulation : metrics .encapProcessedPacketsTotal =
    metrics .encapSkippedPacketsTotalUnsupportedL3Proto +
    metrics .encapSkippedPacketsTotalUnsupportedL4Proto +
    metrics .encapParseErrorsTotalL4ProtoLoad + metrics .encapParseErrorsTotalDestNlriLoad +
    metrics .encapFibMissesTotal +
    metrics .encapFibEntryValidationErrorsTotalInvalidNexthopCount +
    metrics .encapFibEntryValidationErrorsTotalZeroWeight +
    metrics .encapFibEntryValidationErrorsTotalInvalidWeightSum +
    metrics .encapErrorsTotalEncapFailed + metrics .encapEncapsulatedPacketsTotal
  lookups : metrics .encapStickyNexthopTotalMiss =
    metrics .encapFibHitsTotal + metrics .encapFibMissesTotal
  decapsulation : metrics .decapProcessedPacketsTotal =
    metrics .decapParseErrorsTotalShortPacket +
    metrics .decapSkippedPacketsTotalUnsupportedOuterL3Proto +
    metrics .decapSkippedPacketsTotalUnsupportedOuterL4Proto +
    metrics .decapSkippedPacketsTotalUnsupportedInnerL3Proto +
    metrics .decapErrorsTotalDecapFailed + metrics .decapDecapsulatedPacketsTotal
  forwarding : metrics .decapDecapsulatedPacketsTotal =
    metrics .decapErrorsTotalFibLookupFailed +
    metrics .decapErrorsTotalDecrementInnerTtlFailed + metrics .decapErrorsTotalSameIfindex +
    metrics .decapErrorsTotalRedirectFailed + metrics .decapRedirectedPacketsTotal
  callbacks : metrics .sockopsRttCallbacksTotal =
    metrics .sockopsRttSkippedTotalUnsupportedFamily +
    metrics .sockopsRttSkippedTotalStickyNexthopMiss +
    metrics .sockopsRttEventDropsTotalRingbufFull + metrics .sockopsRttEventsTotal

private theorem conserved_of_obeys {metrics : Metrics} (obeys : ∀ law ∈ laws, metrics.Obeys law) :
    Conserved metrics := by
  simp only [laws, List.forall_mem_cons, Metrics.Obeys, total, encapParseExits, validationCounters,
    decapParseExits, forwardExits, rttExits, List.cons_append, List.nil_append, List.map_cons,
    List.map_nil, List.sum_cons, List.sum_nil, UInt64.add_zero] at obeys
  obtain ⟨encapsulation, lookups, decapsulation, forwarding, callbacks, -⟩ := obeys
  constructor
  case encapsulation =>
    rw [encapsulation]
    ac_rfl
  case lookups => exact lookups
  case decapsulation =>
    rw [decapsulation]
    ac_rfl
  case forwarding =>
    rw [forwarding]
    ac_rfl
  case callbacks =>
    rw [callbacks]
    ac_rfl

/-- From counters at zero, the counts of every sequence of runs add up, whatever the
    helpers answer. -/
theorem counters_conserved (fib : Fib) (sticky : Sock → Option SocketStickyNexthop)
    (events : List (DataplaneEvent Sock)) :
    Conserved (events.foldl Maps.handle ⟨fib, sticky, Metrics.zero⟩).metrics := by
  have start : ∀ law ∈ laws, Metrics.zero.total law.entered = Metrics.zero.total law.left := by
    decide +kernel
  apply conserved_of_obeys
  intro law listed
  apply obeys_run listed
  exact start law listed

end Runs

end Erez.Ebpf
