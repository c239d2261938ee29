import Erez.Daemon.SlidingWindow
import Erez.Ebpf.Sockops
import Erez.Ebpf.Stickiness

/-! # The RTT feedback loop

A nexthop of the RIB is written to the FIB, sticks to a socket, comes back in the RTT
events of that socket and is the key of their samples. On the way it changes its
representation four times. The maps hold one kind of address for both families, so
an IPv6 address in the IPv4-mapped range comes back as an IPv4 address, and its
samples are filed where the controller does not look for them.
-/

namespace Erez.Ebpf

open Erez.Daemon Erez.Lib ByteBuffer Descent

variable {Sock : Type*} [DecidableEq Sock]

/-! ## What a socket keeps -/

/-- Socket storage is left alone, or a socket without a value gets one from the entry
    that the destination matches. -/
def StickyStep (maps : Maps Sock) (sk : Option Sock) (dest : CNlri) (after : Maps Sock) : Prop :=
  after.sticky = maps.sticky ∨
    ∃ sock entry nexthop, sk = some sock ∧ maps.sticky sock = none ∧
      maps.fib.lookup dest = some entry ∧
      after.sticky = Function.update maps.sticky sock (some ⟨entry.matchedNlri, nexthop⟩)

theorem Choice.stickyStep {env : EncapEnv} {maps after : Maps Sock} {sk : Option Sock}
    {dest : CNlri} {chosen : Option CIpv6Addr} (choice : Choice env maps sk dest chosen after) :
    StickyStep maps sk dest after := by
  cases choice with
  | own stored => exact .inl rfl
  | missed unstored absent => exact .inl rfl
  | refused unstored found invalid => exact .inl rfl
  | @selected entry nexthop success after unstored found inUse stored =>
      have outcome := store_cases env
        ((maps.bump .encapStickyNexthopTotalMiss).bump .encapFibHitsTotal) sk
        ⟨entry.matchedNlri, nexthop⟩
      rw [stored] at outcome
      have step : StickyStep maps sk dest after := by
        rcases outcome with rfl | ⟨sock, rfl, rfl⟩
        · exact .inl rfl
        · have empty : maps.sticky sock = none := Option.map_eq_none_iff.mp unstored
          exact .inr ⟨sock, entry, nexthop, rfl, empty, found, rfl⟩
      cases success with
      | true => exact step
      | false => exact step

theorem stickyStep_erezEncap (env : EncapEnv) (maps : Maps Sock) (skb : Skb Sock) :
    (erezEncap env maps skb).maps.sticky = maps.sticky ∨
      ∃ addr, destOf skb.data skb.protocol = some addr ∧
        StickyStep maps skb.sk ⟨128, .ofIpAddr addr⟩ (erezEncap env maps skb).maps := by
  have outcome := outcome_erezEncap env maps skb
  generalize erezEncap env maps skb = result at outcome ⊢
  cases outcome with
  | uncounted => exact .inl rfl
  | skipped listed => exact .inl rfl
  | unsteered dest choice => exact .inr ⟨_, dest, choice.stickyStep⟩
  | failed dest choice _ => exact .inr ⟨_, dest, choice.stickyStep⟩
  | encapsulated dest choice protocol wrapped => exact .inr ⟨_, dest, choice.stickyStep⟩

theorem sticky_step {maps : Maps Sock} {sock : Sock} {sticky : SocketStickyNexthop}
    (stored : maps.sticky sock = some sticky) (event : KernelEvent Sock) :
    (maps.step event).sticky sock = some sticky := by
  cases event with
  | update key entry => exact stored
  | delete key => exact stored
  | packet env skb =>
      rcases stickyStep_erezEncap env maps skb with
        same | ⟨-, -, same | ⟨owner, entry, nexthop, -, absent, -, created⟩⟩
      · exact (congrFun same sock).trans stored
      · exact (congrFun same sock).trans stored
      · have other : sock ≠ owner := by
          rintro rfl
          cases stored.symm.trans absent
        rw [Maps.step, created, Function.update_of_ne other]
        exact stored

/-- A stored value stays for good. -/
theorem sticky_run {maps : Maps Sock} {sock : Sock} {sticky : SocketStickyNexthop}
    (stored : maps.sticky sock = some sticky) (events : List (KernelEvent Sock)) :
    (maps.run events).sticky sock = some sticky := by
  refine foldl_invariant (fun maps : Maps Sock => maps.sticky sock = some sticky)
    (fun _ _ => True) ?_ stored fun _ _ _ => trivial
  intro maps event stored _
  exact sticky_step stored event

omit [DecidableEq Sock] in
/-- An event carries what is stored for the socket, beside the clock and the two RTT
    values of the callback as they are. -/
theorem erezSockops_event {env : SockopsEnv} {maps : Maps Sock} {ops : SockOps Sock}
    {event : CTcpRttEvent} (emitted : (erezSockops env maps ops).1 = some event) :
    ∃ sock sticky, ops.sk = some sock ∧ maps.sticky sock = some sticky ∧
      event = ⟨sticky.matchedNlri, sticky.nexthop, env.ktimeGetNs, ops.srttUs, ops.rttMin⟩ := by
  unfold erezSockops at emitted
  split at emitted
  · cases emitted
  · split at emitted
    · split at emitted <;> cases emitted
    · split at emitted <;> cases emitted
    · unfold emitTcpRttEvent at emitted
      simp only at emitted
      split at emitted
      · cases emitted
      · split at emitted
        · cases emitted
        · rename_i sock socket
          split at emitted
          · cases emitted
          · rename_i sticky stored
            split at emitted
            · cases emitted
            · cases emitted
              exact ⟨sock, sticky, socket, stored, rfl⟩
    · cases emitted

/-! ## Once around -/

/-- A run through the kernel for one NLRI and nexthop of the RIB: what `Fib::insert`
    wrote for them, the packet with which a socket sticks to them, and an RTT event
    of that socket any number of packets and FIB writes later. -/
structure Loop (Sock : Type*) [DecidableEq Sock] (nlri : Nlri) (nexthop : Nexthop) where
  entry : FibEntry
  offers : nexthop ∈ entry.active
  maps : Maps Sock
  installed : FiniteMap.get? maps.fib nlri.node = some (entry.toC nlri)
  sock : Sock
  unstuck : maps.sticky sock = none
  env : EncapEnv
  skb : Skb Sock
  own : skb.sk = some sock
  dest : IpAddr
  sent : destOf skb.data skb.protocol = some dest
  matched : maps.fib.lookup ⟨128, .ofIpAddr dest⟩ = some (entry.toC nlri)
  sticks : ((erezEncap env maps skb).maps.sticky sock).map (·.nexthop) = some (.ofIpAddr nexthop)
  since : List (KernelEvent Sock)
  callback : SockopsEnv
  ops : SockOps Sock
  same : ops.sk = some sock
  event : CTcpRttEvent
  emitted : (erezSockops callback ((erezEncap env maps skb).maps.run since) ops).1 = some event

namespace Loop

variable {nlri : Nlri} {nexthop : Nexthop}

/-- The event is stored under the NLRI and nexthop it is about and nowhere else, and
    while it is recent every snapshot has a window where `Descent::step` looks. -/
structure Closes (loop : Loop Sock nlri nexthop) : Prop where
  stored : ∀ (state : TcpRttAggregatorState) (now : UInt64), InWindow now loop.event.tsNs →
    ∀ nlri' nexthop', (state.observe now loop.event).2.queue nlri' nexthop' =
      recent now (state.queue nlri' nexthop') ++
        if nlri' = nlri ∧ nexthop' = nexthop then [sampleOf loop.event] else []
  seen : ∀ (state : TcpRttAggregatorState) (now : UInt64) (calls : List RttCall) (later : UInt64)
    (state' : TcpRttAggregatorState), now ≤ later → InWindow later loop.event.tsNs →
    (∀ call ∈ calls, call.now ≤ later) →
    calls.foldlM TcpRttAggregatorState.step (state.observe now loop.event).2 = .ok state' →
    ∀ snap after, state'.snapshot later = .ok (snap, after) →
      ∃ win, window? snap nlri nexthop = some win

/-- The event has the NLRI and nexthop as the maps store them. -/
theorem event_keys (loop : Loop Sock nlri nexthop) :
    loop.event.matchedNlri = .ofIpNet nlri ∧ loop.event.nexthop = .ofIpAddr nexthop := by
  obtain ⟨sticky, stuck, chosen⟩ := Option.map_eq_some_iff.mp loop.sticks
  have origin : sticky.matchedNlri = .ofIpNet nlri := by
    rcases stickyStep_erezEncap loop.env loop.maps loop.skb with
      same | ⟨addr, sent, same | ⟨owner, entry, picked, own, -, matched, created⟩⟩
    · rw [same, loop.unstuck] at stuck
      cases stuck
    · rw [same, loop.unstuck] at stuck
      cases stuck
    · obtain rfl : loop.dest = addr := Option.some.inj (loop.sent.symm.trans sent)
      obtain rfl : loop.sock = owner := Option.some.inj (loop.own.symm.trans own)
      obtain rfl : loop.entry.toC nlri = entry := Option.some.inj (loop.matched.symm.trans matched)
      rw [created, Function.update_self] at stuck
      obtain rfl := Option.some.inj stuck
      rfl
  obtain ⟨sock, kept, same, there, made⟩ := erezSockops_event loop.emitted
  obtain rfl : loop.sock = sock := Option.some.inj (loop.same.symm.trans same)
  obtain rfl : sticky = kept := Option.some.inj ((sticky_run stuck loop.since).symm.trans there)
  rw [made]
  exact ⟨origin, chosen⟩

/-- Where the event is filed. -/
theorem event?_observe (loop : Loop Sock nlri nexthop) (now : UInt64) (nlri' : Nlri)
    (nexthop' : Nexthop) :
    (RttCall.observe now loop.event).event? nlri' nexthop' =
      if IpNet.tryFrom (.ofIpNet nlri) = .ok nlri' ∧
        IpAddr.ofCIpv6Addr (.ofIpAddr nexthop) = nexthop' then some loop.event else none := by
  obtain ⟨ofNlri, ofNexthop⟩ := loop.event_keys
  rw [RttCall.event?, ofNlri, ofNexthop]

/-- The loop closes for the addresses that survive the way through the maps. -/
theorem closes_iff_native (loop : Loop Sock nlri nexthop) :
    loop.Closes ↔ nlri.addr.Native ∧ nexthop.Native := by
  constructor
  · intro closes
    have now : InWindow loop.event.tsNs loop.event.tsNs := by simp [InWindow]
    have stored := closes.stored .default loop.event.tsNs now nlri nexthop
    rw [TcpRttAggregatorState.queue_observe _ now, loop.event?_observe] at stored
    simp only [and_self, if_true] at stored
    split at stored
    · rename_i back
      exact ⟨tryFrom_ofIpNet.mp back.1, ofCIpv6Addr_ofIpAddr.mp back.2⟩
    · exact absurd (List.append_cancel_left stored) (by simp)
  · rintro ⟨nativeNlri, nativeNexthop⟩
    have filed : ∀ now nlri' nexthop', (RttCall.observe now loop.event).event? nlri' nexthop' =
        if nlri' = nlri ∧ nexthop' = nexthop then some loop.event else none := by
      intro now nlri' nexthop'
      rw [loop.event?_observe, tryFrom_ofIpNet.mpr nativeNlri, ofCIpv6Addr_ofIpAddr.mpr nativeNexthop]
      simp only [Except.ok.injEq, eq_comm]
    constructor
    case stored =>
      intro state now recently nlri' nexthop'
      rw [TcpRttAggregatorState.queue_observe _ recently, filed]
      split <;> rfl
    case seen =>
      intro state now calls later state' order recently ordered ran snap after taken
      refine TcpRttAggregatorState.exists_window ordered ran ?_ taken
      rw [TcpRttAggregatorState.queue_observe _ (recently.of_later order), filed,
        if_pos ⟨rfl, rfl⟩, Option.toList_some, List.map_singleton]
      exact ⟨sampleOf loop.event, by simp, recently⟩

section OneNexthop

private def sampledNlri : Nlri := .v4 (.clamped (.new 203 0 113 0) 24)

/-- 192.0.2.1, as it is or as an IPv6 next hop carries it. -/
private def sampledHop : Bool → Nexthop
  | false => .v4 (.new 192 0 2 1)
  | true => .v6 (.new 0 0 0 0 0 0xFFFF 0xC000 0x0201)

private def sampledEvent (embedded : Bool) : CTcpRttEvent :=
  ⟨.ofIpNet sampledNlri, .ofIpAddr (sampledHop embedded), 5000000000, 40, 30⟩

private theorem accepts_only (hop : Nexthop) : FibEntry.Accepts [⟨hop, 10000⟩] where
  nonempty := List.cons_ne_nil _ _
  few := by simp [maxNexthops]
  sum := rfl
  nonzero := by simp

/-- The nexthop is the only one of its NLRI; a datagram and a callback go once around. -/
private theorem exists_loop (embedded : Bool) :
    ∃ loop : Loop ℕ sampledNlri (sampledHop embedded), loop.event = sampledEvent embedded := by
  let entry := FibEntry.pack _ (accepts_only (sampledHop embedded))
  let loop : Loop ℕ sampledNlri (sampledHop embedded) :=
    { entry := entry
      offers := by cases embedded <;> decide +kernel
      maps := ⟨Fib.insert ∅ sampledNlri entry, fun _ => none, Metrics.zero⟩
      installed := by cases embedded <;> decide +kernel
      sock := 7
      unstuck := rfl
      env := .smooth
      skb := udpTo (some 7) (.new 203 0 113 9)
      own := rfl
      dest := .v4 (.new 203 0 113 9)
      sent := by decide +kernel
      matched := by cases embedded <;> decide +kernel
      sticks := by cases embedded <;> decide +kernel
      since := []
      callback := ⟨true, fun _ => true, true, 5000000000⟩
      ops := ⟨.rttCb, afInet, #v[203, 0, 113, 9], Vector.replicate 16 0, 0, some 7, 40, 30⟩
      same := rfl
      event := sampledEvent embedded
      emitted := by cases embedded <;> decide +kernel }
  exact ⟨loop, rfl⟩

theorem closes_for_ipv4_hop : ∃ loop : Loop ℕ sampledNlri (sampledHop false), loop.Closes := by
  obtain ⟨loop, -⟩ := exists_loop false
  exact ⟨loop, loop.closes_iff_native.mpr (by decide +kernel)⟩

/-- The samples of an IPv4-mapped nexthop are not under the nexthop that the RIB has. -/
theorem mapped_hop_unseen : ∃ loop : Loop ℕ sampledNlri (sampledHop true), ¬ loop.Closes := by
  obtain ⟨loop, event⟩ := exists_loop true
  refine ⟨loop, fun closes => ?_⟩
  have stored := closes.stored .default 5000000000
  rw [event] at stored
  have filed := stored (by decide) sampledNlri (sampledHop true)
  revert filed
  decide +kernel

end OneNexthop

end Loop

end Erez.Ebpf
