import Erez.Ebpf.FamilyLookup
import Erez.Ebpf.Selection

/-! # The encapsulation program

`erez_encap` and the maps it shares with userspace. A socket that has been given a
nexthop keeps it for all its packets; only the others consult the FIB. The value in
socket storage is created once and never changed.
-/

namespace Erez.Ebpf

open Erez.Daemon Erez.Lib ByteBuffer

structure SocketStickyNexthop where
  matchedNlri : CNlri
  nexthop : CIpv6Addr
  deriving DecidableEq

/-- The maps of the program, as one CPU sees them. -/
structure Maps (Sock : Type*) where
  fib : Fib
  sticky : Sock → Option SocketStickyNexthop
  metrics : Metrics

variable {Sock : Type*}

def Maps.bump (maps : Maps Sock) (counter : Counter) : Maps Sock :=
  { maps with metrics := maps.metrics.bump counter }

@[simp]
theorem Maps.bump_fib (maps : Maps Sock) (counter : Counter) : (maps.bump counter).fib = maps.fib :=
  rfl

@[simp]
theorem Maps.bump_sticky (maps : Maps Sock) (counter : Counter) :
    (maps.bump counter).sticky = maps.sticky :=
  rfl

theorem Maps.bump_metrics_other (maps : Maps Sock) {counter other : Counter} (h : other ≠ counter) :
    (maps.bump counter).metrics other = maps.metrics other :=
  Metrics.bump_other maps.metrics h

def socketStickyNexthopLookup (maps : Maps Sock) (sk : Option Sock) : Option CIpv6Addr :=
  (sk.bind maps.sticky).map (·.nexthop)

/-- What a run of the program leaves behind. -/
structure EncapResult (Sock : Type*) where
  act : TcAct
  frame : Frame
  maps : Maps Sock

/-- The end of the program, where a nexthop is chosen. -/
def encapTowards (env : EncapEnv) (maps : Maps Sock) (skb : Skb Sock) (pkt : EncapPacket)
    (nexthop : CIpv6Addr) : EncapResult Sock :=
  match encapPktEncapsulateIp6Gre env skb.data pkt nexthop with
  -- The packet may be modified already, so it is dropped.
  | .error frame => ⟨.shot, frame, maps.bump .encapErrorsTotalEncapFailed⟩
  | .ok frame => ⟨.ok, frame, maps.bump .encapEncapsulatedPacketsTotal⟩

variable [DecidableEq Sock]

/-- `bpf_sk_storage_get` with the create flag: the value that is there, or a new one. -/
def socketStickyNexthopStore (env : EncapEnv) (maps : Maps Sock) (sk : Option Sock)
    (sticky : SocketStickyNexthop) : Bool × Maps Sock :=
  match sk with
  | none => (false, maps)
  | some sock =>
      if (maps.sticky sock).isSome then (true, maps)
      else if env.storageCreate then
        (true, { maps with sticky := Function.update maps.sticky sock (some sticky) })
      else (false, maps)

/-- The nexthop of a parsed packet, if it is to be steered. -/
def chooseNexthop (env : EncapEnv) (maps : Maps Sock) (sk : Option Sock) (pkt : EncapPacket) :
    Option CIpv6Addr × Maps Sock :=
  -- Prefer sticky nexthops.
  match socketStickyNexthopLookup maps sk with
  | some nexthop => (some nexthop, maps.bump .encapStickyNexthopTotalHit)
  | none =>
      let maps := maps.bump .encapStickyNexthopTotalMiss
      match maps.fib.lookup pkt.nlri with
      | none => (none, maps.bump .encapFibMissesTotal)
      | some entry =>
          let maps := maps.bump .encapFibHitsTotal
          match fibEntrySelectNexthop entry env.random maps.metrics with
          | (none, metrics) => (none, { maps with metrics })
          | (some nexthop, metrics) =>
              match socketStickyNexthopStore env { maps with metrics } sk
                ⟨entry.matchedNlri, nexthop⟩ with
              | (true, maps) => (some nexthop, maps.bump .encapStickyNexthopTotalStore)
              | (false, maps) => (some nexthop, maps)

def erezEncap (env : EncapEnv) (maps : Maps Sock) (skb : Skb Sock) : EncapResult Sock :=
  if ¬ env.metricsFound then ⟨.shot, skb.data, maps⟩
  else
    let maps := maps.bump .encapProcessedPacketsTotal
    match encapPktParse env skb maps.metrics with
    | (.error act, metrics) => ⟨act, skb.data, { maps with metrics }⟩
    | (.ok pkt, metrics) =>
        match chooseNexthop env { maps with metrics } skb.sk pkt with
        | (none, maps) => ⟨.ok, skb.data, maps⟩
        | (some nexthop, maps) => encapTowards env maps skb pkt nexthop

/-! ## What a run of the program can do -/

theorem store_cases (env : EncapEnv) (maps : Maps Sock) (sk : Option Sock)
    (sticky : SocketStickyNexthop) :
    (socketStickyNexthopStore env maps sk sticky).2 = maps ∨
      ∃ sock, sk = some sock ∧ (socketStickyNexthopStore env maps sk sticky).2 =
        { maps with sticky := Function.update maps.sticky sock (some sticky) } := by
  unfold socketStickyNexthopStore
  cases sk with
  | none => exact .inl rfl
  | some sock =>
      simp only
      split
      · exact .inl rfl
      · split
        · exact .inr ⟨sock, rfl, rfl⟩
        · exact .inl rfl

/-- All there is to choosing a nexthop. -/
inductive Choice (env : EncapEnv) (maps : Maps Sock) (sk : Option Sock) (dest : CNlri) :
    Option CIpv6Addr → Maps Sock → Prop where
  | own {nexthop : CIpv6Addr} (stored : socketStickyNexthopLookup maps sk = some nexthop) :
      Choice env maps sk dest (some nexthop) (maps.bump .encapStickyNexthopTotalHit)
  | missed (unstored : socketStickyNexthopLookup maps sk = none)
      (absent : maps.fib.lookup dest = none) :
      Choice env maps sk dest none
        ((maps.bump .encapStickyNexthopTotalMiss).bump .encapFibMissesTotal)
  | refused {entry : CFibEntry} {counter : Counter}
      (unstored : socketStickyNexthopLookup maps sk = none)
      (found : maps.fib.lookup dest = some entry) (invalid : counter ∈ validationCounters) :
      Choice env maps sk dest none
        (((maps.bump .encapStickyNexthopTotalMiss).bump .encapFibHitsTotal).bump counter)
  | selected {entry : CFibEntry} {nexthop : CIpv6Addr} {success : Bool} {after : Maps Sock}
      (unstored : socketStickyNexthopLookup maps sk = none)
      (found : maps.fib.lookup dest = some entry) (inUse : nexthop ∈ entry.active)
      (stored : socketStickyNexthopStore env
        ((maps.bump .encapStickyNexthopTotalMiss).bump .encapFibHitsTotal) sk
        ⟨entry.matchedNlri, nexthop⟩ = (success, after)) :
      Choice env maps sk dest (some nexthop)
        (if success then after.bump .encapStickyNexthopTotalStore else after)

theorem choice_chooseNexthop (env : EncapEnv) (maps : Maps Sock) (sk : Option Sock)
    (pkt : EncapPacket) :
    Choice env maps sk pkt.nlri (chooseNexthop env maps sk pkt).1
      (chooseNexthop env maps sk pkt).2 := by
  unfold chooseNexthop
  cases own : socketStickyNexthopLookup maps sk with
  | some nexthop => exact .own own
  | none =>
      simp only [Maps.bump_fib]
      cases found : maps.fib.lookup pkt.nlri with
      | none => exact .missed own found
      | some entry =>
          set hit := (maps.bump .encapStickyNexthopTotalMiss).bump .encapFibHitsTotal with hitIs
          rcases select_cases entry env.random hit.metrics with
            ⟨counter, invalid, refused⟩ | ⟨nexthop, inUse, selected⟩
          · simp only [refused]
            exact .refused own found invalid
          · simp only [selected]
            rcases stored : socketStickyNexthopStore env hit sk ⟨entry.matchedNlri, nexthop⟩ with
              ⟨success, after⟩
            have sameStore : socketStickyNexthopStore env ⟨maps.fib, hit.sticky, hit.metrics⟩ sk
                ⟨entry.matchedNlri, nexthop⟩ = (success, after) := stored
            have choice := Choice.selected own found inUse stored
            simp only [sameStore]
            cases success with
            | true => exact choice
            | false => exact choice

/-- All there is to a run of the program. -/
inductive Outcome (env : EncapEnv) (maps : Maps Sock) (skb : Skb Sock) :
    EncapResult Sock → Prop where
  | uncounted : Outcome env maps skb ⟨.shot, skb.data, maps⟩
  | skipped {exit : Counter} {act : TcAct} (listed : exit ∈ encapParseExits) :
      Outcome env maps skb ⟨act, skb.data, (maps.bump .encapProcessedPacketsTotal).bump exit⟩
  | unsteered {addr : IpAddr} {after : Maps Sock}
      (dest : destOf skb.data skb.protocol = some addr)
      (choice : Choice env (maps.bump .encapProcessedPacketsTotal) skb.sk ⟨128, .ofIpAddr addr⟩
        none after) :
      Outcome env maps skb ⟨.ok, skb.data, after⟩
  | failed {addr : IpAddr} {pkt : EncapPacket} {nexthop : CIpv6Addr} {after : Maps Sock}
      {frame : Frame} (dest : destOf skb.data skb.protocol = some addr)
      (choice : Choice env (maps.bump .encapProcessedPacketsTotal) skb.sk ⟨128, .ofIpAddr addr⟩
        (some nexthop) after)
      (broken : encapPktEncapsulateIp6Gre env skb.data pkt nexthop = .error frame) :
      Outcome env maps skb ⟨.shot, frame, after.bump .encapErrorsTotalEncapFailed⟩
  | encapsulated {addr : IpAddr} {pkt : EncapPacket} {nexthop : CIpv6Addr} {after : Maps Sock}
      {frame : Frame} (dest : destOf skb.data skb.protocol = some addr)
      (choice : Choice env (maps.bump .encapProcessedPacketsTotal) skb.sk ⟨128, .ofIpAddr addr⟩
        (some nexthop) after) (protocol : pkt.l3Proto = skb.protocol)
      (wrapped : encapPktEncapsulateIp6Gre env skb.data pkt nexthop = .ok frame) :
      Outcome env maps skb ⟨.ok, frame, after.bump .encapEncapsulatedPacketsTotal⟩

theorem outcome_erezEncap (env : EncapEnv) (maps : Maps Sock) (skb : Skb Sock) :
    Outcome env maps skb (erezEncap env maps skb) := by
  unfold erezEncap
  split
  · exact .uncounted
  · simp only
    rcases encapPktParse_cases env skb (maps.bump .encapProcessedPacketsTotal).metrics with
      ⟨exit, listed, skipped⟩ | ⟨pkt, parsed⟩
    · simp only [skipped]
      exact .skipped listed
    · obtain ⟨protocol, -, loaded⟩ := encapPktParse_ok (congrArg Prod.fst parsed)
      obtain ⟨addr, dest, key⟩ := loadDestNlri_eq loaded
      have choice := choice_chooseNexthop env (maps.bump .encapProcessedPacketsTotal) skb.sk pkt
      rcases chosen : chooseNexthop env (maps.bump .encapProcessedPacketsTotal) skb.sk pkt with
        ⟨nexthop?, after⟩
      rw [chosen, key] at choice
      have sameChoice : chooseNexthop env { maps.bump .encapProcessedPacketsTotal with
          metrics := (maps.bump .encapProcessedPacketsTotal).metrics } skb.sk pkt =
          (nexthop?, after) := chosen
      simp only [parsed, sameChoice]
      cases nexthop? with
      | none => exact .unsteered dest choice
      | some nexthop =>
          simp only [encapTowards]
          cases wrapped : encapPktEncapsulateIp6Gre env skb.data pkt nexthop with
          | error frame => exact .failed dest choice wrapped
          | ok frame => exact .encapsulated dest choice protocol wrapped

/-! ## Where a nexthop comes from -/

/-- The destination of the packet has, at this moment, the nexthop among those of its
    longest-prefix match. -/
def Offered (maps : Maps Sock) (skb : Skb Sock) (nexthop : CIpv6Addr) : Prop :=
  ∃ addr entry, destOf skb.data skb.protocol = some addr ∧
    maps.fib.lookup ⟨128, .ofIpAddr addr⟩ = some entry ∧ nexthop ∈ entry.active

/-- The program counts the packet as encapsulated and the outer header names the nexthop. -/
def Encapsulates (env : EncapEnv) (maps : Maps Sock) (skb : Skb Sock) (nexthop : CIpv6Addr) :
    Prop :=
  (erezEncap env maps skb).maps.metrics .encapEncapsulatedPacketsTotal =
      maps.metrics .encapEncapsulatedPacketsTotal + 1 ∧
    slice (erezEncap env maps skb).frame (ethHdrLen + 24) 16 = nexthop.octets.toList

/-- What choosing a nexthop may do: take the socket's own, or one of the matched
    entry, which then may become the socket's own. -/
structure Chooses (maps : Maps Sock) (sk : Option Sock) (nlri : CNlri)
    (chosen : Option CIpv6Addr) (after : Maps Sock) : Prop where
  fib : after.fib = maps.fib
  uncounted : after.metrics .encapEncapsulatedPacketsTotal =
    maps.metrics .encapEncapsulatedPacketsTotal
  origin : ∀ nexthop, chosen = some nexthop →
    (∃ sock sticky, sk = some sock ∧ maps.sticky sock = some sticky ∧
      sticky.nexthop = nexthop) ∨
    ∃ entry, maps.fib.lookup nlri = some entry ∧ nexthop ∈ entry.active
  sticky : ∀ sock sticky, after.sticky sock = some sticky → maps.sticky sock = some sticky ∨
    (sk = some sock ∧ ∃ entry, maps.fib.lookup nlri = some entry ∧
      sticky.nexthop ∈ entry.active)

/-- Taking a nexthop of the matched entry, stored for the socket or not. -/
theorem chooses_selected {maps after : Maps Sock} {sk : Option Sock} {nlri : CNlri}
    {entry : CFibEntry} {nexthop : CIpv6Addr} {success : Bool} {env : EncapEnv}
    (found : maps.fib.lookup nlri = some entry) (inUse : nexthop ∈ entry.active)
    (stored : socketStickyNexthopStore env
      ((maps.bump .encapStickyNexthopTotalMiss).bump .encapFibHitsTotal) sk
      ⟨entry.matchedNlri, nexthop⟩ = (success, after)) :
    Chooses maps sk nlri (some nexthop) after := by
  have uncounted : ((maps.bump .encapStickyNexthopTotalMiss).bump .encapFibHitsTotal).metrics
      .encapEncapsulatedPacketsTotal = maps.metrics .encapEncapsulatedPacketsTotal :=
    (Maps.bump_metrics_other _ (by decide)).trans (Maps.bump_metrics_other _ (by decide))
  have origin : ∀ chosen, some nexthop = some chosen →
      (∃ sock sticky, sk = some sock ∧ maps.sticky sock = some sticky ∧ sticky.nexthop = chosen) ∨
      ∃ entry, maps.fib.lookup nlri = some entry ∧ chosen ∈ entry.active := by
    rintro chosen ⟨⟩
    exact .inr ⟨entry, found, inUse⟩
  have outcome := store_cases env
    ((maps.bump .encapStickyNexthopTotalMiss).bump .encapFibHitsTotal) sk
    ⟨entry.matchedNlri, nexthop⟩
  rw [stored] at outcome
  rcases outcome with rfl | ⟨sock, socket, rfl⟩
  · exact ⟨rfl, uncounted, origin, fun _ _ kept => .inl kept⟩
  · refine ⟨rfl, uncounted, origin, fun other sticky kept => ?_⟩
    by_cases here : other = sock
    · subst here
      have new : ⟨entry.matchedNlri, nexthop⟩ = sticky := by simpa using kept
      subst new
      exact .inr ⟨socket, entry, found, inUse⟩
    · have before : maps.sticky other = some sticky := by simpa [here] using kept
      exact .inl before

omit [DecidableEq Sock] in
theorem Chooses.bump {maps after : Maps Sock} {sk : Option Sock} {nlri : CNlri}
    {chosen : Option CIpv6Addr} (h : Chooses maps sk nlri chosen after) {counter : Counter}
    (other : Counter.encapEncapsulatedPacketsTotal ≠ counter) :
    Chooses maps sk nlri chosen (after.bump counter) :=
  ⟨h.fib, (after.bump_metrics_other other).trans h.uncounted, h.origin, h.sticky⟩

theorem Choice.chooses {env : EncapEnv} {maps after : Maps Sock} {sk : Option Sock} {dest : CNlri}
    {chosen : Option CIpv6Addr} (h : Choice env maps sk dest chosen after) :
    Chooses maps sk dest chosen after := by
  have none : Chooses maps sk dest none maps := ⟨rfl, rfl, nofun, fun _ _ kept => .inl kept⟩
  cases h with
  | own hit =>
      refine Chooses.bump ⟨rfl, rfl, ?_, fun _ _ kept => .inl kept⟩ (by decide)
      rintro chosen ⟨⟩
      obtain ⟨sticky, ofSock, rfl⟩ := Option.map_eq_some_iff.mp hit
      obtain ⟨sock, socket, stored⟩ := Option.bind_eq_some_iff.mp ofSock
      exact .inl ⟨sock, sticky, socket, stored, rfl⟩
  | missed unstored absent => exact (none.bump (by decide)).bump (by decide)
  | refused unstored found invalid =>
      have other : ∀ counter ∈ validationCounters,
          Counter.encapEncapsulatedPacketsTotal ≠ counter := by decide
      exact ((none.bump (by decide)).bump (by decide)).bump (other _ invalid)
  | selected unstored found inUse stored =>
      have taken := chooses_selected found inUse stored
      split
      · exact taken.bump (by decide)
      · exact taken

end Erez.Ebpf
