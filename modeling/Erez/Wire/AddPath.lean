import Erez.Daemon.RouteEvents
import Erez.Wire.MpAttributes

/-! # Announcing and withdrawing with path identifiers

The daemon negotiates Add-Path for reception, so every route a peer sends it has a
path identifier, in announcements and in withdrawals alike. The map that the
decoders consult is never told and stays empty. IPv4 routes come out of both
attributes as they went in. IPv6 routes come out of an announcement only: a
withdrawal reads the octets of the path identifiers as prefixes and withdraws
nothing that was announced.
-/

namespace Erez.Daemon

open Erez.Lib ByteParser LastWriter

/-! ## Routes with path identifiers -/

/-- A route as an Add-Path peer sends it. -/
structure Ipv4PathRoute where
  pathId : UInt32
  network : Ipv4Unicast
  canonical : network.address.Canonical
  deriving DecidableEq

structure Ipv6PathRoute where
  pathId : UInt32
  network : Ipv6Unicast
  canonical : network.address.Canonical
  deriving DecidableEq

def Ipv4PathRoute.address (route : Ipv4PathRoute) : Ipv4UnicastAddress :=
  ⟨some route.pathId, route.network⟩

def Ipv6PathRoute.address (route : Ipv6PathRoute) : Ipv6UnicastAddress :=
  ⟨some route.pathId, route.network⟩

def ipv6NextHopWrite (nextHop : Ipv6Addr) : Option Ipv6Addr → List UInt8
  | none => 16 :: nextHop.octets.toList
  | some linkLocal => 32 :: (nextHop.octets.toList ++ linkLocal.octets.toList)

/-- The next hops an IPv4 announcement can have. -/
inductive Ipv4NextHop where
  | v4 (addr : Ipv4Addr)
  | v6 (addr : Ipv6Addr) (linkLocal : Option Ipv6Addr)
  deriving DecidableEq

namespace Ipv4NextHop

def value : Ipv4NextHop → IpAddr × Option Ipv6Addr
  | v4 addr => (.v4 addr, none)
  | v6 addr linkLocal => (.v6 addr, linkLocal)

def write : Ipv4NextHop → List UInt8
  | v4 addr => 4 :: addr.octets.toList
  | v6 addr linkLocal => ipv6NextHopWrite addr linkLocal

end Ipv4NextHop

/-- The routes of one announcement, and of the withdrawal that takes it back. -/
inductive UnicastRoutes where
  | ipv4 (nextHop : Ipv4NextHop) (routes : List Ipv4PathRoute)
  | ipv6 (nextHopGlobal : Ipv6Addr) (nextHopLocal : Option Ipv6Addr) (routes : List Ipv6PathRoute)
  deriving DecidableEq

namespace UnicastRoutes

def IsIpv4 : UnicastRoutes → Prop
  | ipv4 _ _ => True
  | ipv6 _ _ _ => False

def routes : UnicastRoutes → List Route
  | ipv4 _ routes => (routes.map (·.address)).map .ofIpv4
  | ipv6 _ _ routes => (routes.map (·.address)).map .ofIpv6

def reach : UnicastRoutes → MpReach
  | ipv4 nextHop routes => .ipv4Unicast nextHop.value.1 nextHop.value.2 (routes.map (·.address))
  | ipv6 nextHopGlobal nextHopLocal routes =>
      .ipv6Unicast nextHopGlobal nextHopLocal (routes.map (·.address))

def unreach : UnicastRoutes → MpUnreach
  | ipv4 _ routes => .ipv4Unicast (routes.map (·.address))
  | ipv6 _ _ routes => .ipv6Unicast (routes.map (·.address))

/-- AFI and SAFI. -/
def typeBytes : UnicastRoutes → List UInt8
  | ipv4 _ _ => toBigEndian 2 (1 : UInt16).toNat ++ [1]
  | ipv6 _ _ _ => toBigEndian 2 (2 : UInt16).toNat ++ [1]

def nextHopBytes : UnicastRoutes → List UInt8
  | ipv4 nextHop _ => nextHop.write
  | ipv6 nextHopGlobal nextHopLocal _ => ipv6NextHopWrite nextHopGlobal nextHopLocal

/-- The Add-Path encoding of the routes; the same bytes announce and withdraw them. -/
def nlriBytes : UnicastRoutes → List UInt8
  | ipv4 _ routes => (routes.map (·.address)).flatMap (·.write)
  | ipv6 _ _ routes => (routes.map (·.address)).flatMap (·.write)

def reachBytes (announced : UnicastRoutes) (reserved : UInt8) : List UInt8 :=
  announced.typeBytes ++ (announced.nextHopBytes ++ ([reserved] ++ announced.nlriBytes))

def unreachBytes (announced : UnicastRoutes) : List UInt8 :=
  announced.typeBytes ++ announced.nlriBytes

end UnicastRoutes

/-! ## Processing a message -/

namespace BgpUpdateMessage

def ofReach (reach : MpReach) : BgpUpdateMessage :=
  ⟨[], [.mpReach reach], []⟩

def ofUnreach (unreach : MpUnreach) : BgpUpdateMessage :=
  ⟨[], [.mpUnreach unreach], []⟩

end BgpUpdateMessage

/-- A message that does not convert is logged and dropped. -/
def Controller.receive (c : Controller) (msg : BgpUpdateMessage) : Controller :=
  match Update.tryFrom msg with
  | .ok update => c.applyUpdate update
  | .error _ => c

/-- Announcing and withdrawing decode to the same routes, and the withdrawal takes
    back what the announcement put in, whatever the daemon knew before. -/
structure Symmetric (other : OtherFamilies) (announced : UnicastRoutes) (reserved : UInt8)
    (reachExtended unreachExtended : Bool) : Prop where
  reach : Reads (MpReach.fromWire other reachExtended ∅)
    (frame reachExtended (announced.reachBytes reserved)) announced.reach
  unreach : Reads (MpUnreach.fromWire other unreachExtended ∅)
    (frame unreachExtended announced.unreachBytes) announced.unreach
  cleared : ∀ reach unreach,
    MpReach.fromWire other reachExtended ∅ (frame reachExtended (announced.reachBytes reserved)) =
      .ok (reach, []) →
    MpUnreach.fromWire other unreachExtended ∅ (frame unreachExtended announced.unreachBytes) =
      .ok (unreach, []) →
    ∀ c : Controller, ∀ route ∈ announced.routes,
      ((c.receive (.ofReach reach)).receive (.ofUnreach unreach)).rib.nexthop? route = none

/-! ## The announcement -/

variable {ε : Type}

/-- The loop over the routes reads back an Add-Path encoding. -/
private theorem ipv4_tillEmpty (routes : List Ipv4PathRoute)
    (wrap : Ipv4UnicastAddressParsingError → ε) :
    tillEmpty ((Ipv4UnicastAddress.fromWire true).mapErr wrap)
      ((routes.map (·.address)).flatMap (·.write)) = .ok (routes.map (·.address), []) := by
  apply tillEmpty_flatMap ((Ipv4UnicastAddress.fromWire_consumes true).mapErr wrap)
  intro nlri member
  obtain ⟨route, -, rfl⟩ := List.mem_map.mp member
  exact (Ipv4UnicastAddress.fromWire_reads route.canonical route.pathId).mapErr wrap

private theorem ipv6_tillEmpty (routes : List Ipv6PathRoute)
    (wrap : Ipv6UnicastAddressParsingError → ε) :
    tillEmpty ((Ipv6UnicastAddress.fromWire true).mapErr wrap)
      ((routes.map (·.address)).flatMap (·.write)) = .ok (routes.map (·.address), []) := by
  apply tillEmpty_flatMap ((Ipv6UnicastAddress.fromWire_consumes true).mapErr wrap)
  intro nlri member
  obtain ⟨route, -, rfl⟩ := List.mem_map.mp member
  exact (Ipv6UnicastAddress.fromWire_reads route.canonical route.pathId).mapErr wrap

private theorem parseIp4OrIpv6NextHop_reads (addrType : AddressType) (nextHop : Ipv4NextHop) :
    Reads (MpReach.parseIp4OrIpv6NextHop addrType) nextHop.write nextHop.value := by
  cases nextHop with
  | v4 addr =>
      rw [Ipv4NextHop.write, ← List.append_nil addr.octets.toList]
      refine Reads.beU8_bind _ 4 ?_
      exact Reads.bind (ipv4Addr_reads _ addr) (Reads.pure _)
  | v6 addr linkLocal =>
      cases linkLocal with
      | none =>
          rw [Ipv4NextHop.write, ipv6NextHopWrite, ← List.append_nil addr.octets.toList]
          refine Reads.beU8_bind _ 16 ?_
          exact Reads.bind (ipv6Addr_reads _ addr) (Reads.pure _)
      | some linkLocal =>
          rw [Ipv4NextHop.write, ipv6NextHopWrite, ← List.append_nil linkLocal.octets.toList]
          refine Reads.beU8_bind _ 32 ?_
          refine Reads.bind (ipv6Addr_reads _ addr) ?_
          exact Reads.bind (ipv6Addr_reads _ linkLocal) (Reads.pure _)

private theorem ipv4_body (other : OtherFamilies) (addPathMap : AddPathMap) (nextHop : Ipv4NextHop)
    (routes : List Ipv4PathRoute) (reserved : UInt8) :
    MpReach.body other addPathMap ((UnicastRoutes.ipv4 nextHop routes).reachBytes reserved) =
      .ok ((UnicastRoutes.ipv4 nextHop routes).reach, []) := by
  have family := addressType_reads MpReach.eof .undefinedAddressFamily
    .undefinedSubsequentAddressFamily 1 1 (by decide) (by decide)
  refine (family.then_eq _ _).trans ?_
  refine ((parseIp4OrIpv6NextHop_reads .ipv4Unicast nextHop).then_eq _ _).trans ?_
  refine ((Reads.beU8 _ reserved).then_eq _ _).trans ?_
  exact bind_of_ok (ipv4_tillEmpty routes _) _

private theorem ipv6_body (other : OtherFamilies) (addPathMap : AddPathMap)
    (nextHopGlobal : Ipv6Addr) (nextHopLocal : Option Ipv6Addr) (routes : List Ipv6PathRoute)
    (reserved : UInt8) :
    MpReach.body other addPathMap
        ((UnicastRoutes.ipv6 nextHopGlobal nextHopLocal routes).reachBytes reserved) =
      .ok ((UnicastRoutes.ipv6 nextHopGlobal nextHopLocal routes).reach, []) := by
  have family := addressType_reads MpReach.eof .undefinedAddressFamily
    .undefinedSubsequentAddressFamily 2 1 (by decide) (by decide)
  refine (family.then_eq _ _).trans ?_
  cases nextHopLocal with
  | none =>
      refine ((Reads.beU8 _ 16).then_eq _ _).trans ?_
      refine ((ipv6Addr_reads _ nextHopGlobal).then_eq _ _).trans ?_
      refine ((Reads.pure none).then_eq _ _).trans ?_
      refine ((Reads.beU8 _ reserved).then_eq _ _).trans ?_
      exact bind_of_ok (ipv6_tillEmpty routes _) _
  | some linkLocal =>
      refine ((Reads.beU8 _ 32).then_eq _ _).trans ?_
      refine Eq.trans (congrArg _ (List.append_assoc ..)) ?_
      refine ((ipv6Addr_reads _ nextHopGlobal).then_eq _ _).trans ?_
      refine (((ipv6Addr_reads _ linkLocal).map some).then_eq _ _).trans ?_
      refine ((Reads.beU8 _ reserved).then_eq _ _).trans ?_
      exact bind_of_ok (ipv6_tillEmpty routes _) _

/-- An announcement is decoded to the routes it encodes, in either family. -/
theorem MpReach.body_reachBytes (other : OtherFamilies) (addPathMap : AddPathMap)
    (announced : UnicastRoutes) (reserved : UInt8) :
    MpReach.body other addPathMap (announced.reachBytes reserved) = .ok (announced.reach, []) := by
  cases announced with
  | ipv4 nextHop routes => exact ipv4_body other addPathMap nextHop routes reserved
  | ipv6 nextHopGlobal nextHopLocal routes =>
      exact ipv6_body other addPathMap nextHopGlobal nextHopLocal routes reserved

/-! ## The withdrawal -/

private theorem ipv4_withdrawal (other : OtherFamilies) (addPathMap : AddPathMap)
    (nextHop : Ipv4NextHop) (routes : List Ipv4PathRoute) :
    MpUnreach.body other addPathMap (UnicastRoutes.ipv4 nextHop routes).unreachBytes =
      .ok ((UnicastRoutes.ipv4 nextHop routes).unreach, []) := by
  have family := addressType_reads MpUnreach.eof .undefinedAddressFamily
    .undefinedSubsequentAddressFamily 1 1 (by decide) (by decide)
  refine (family.then_eq _ _).trans ?_
  exact bind_of_ok (ipv4_tillEmpty routes _) _

private theorem withdrawal_of_benign (other : OtherFamilies) (addPathMap : AddPathMap)
    {announced : UnicastRoutes} (benign : announced.IsIpv4 ∨ announced.routes = []) :
    MpUnreach.body other addPathMap announced.unreachBytes = .ok (announced.unreach, []) := by
  cases announced with
  | ipv4 nextHop routes => exact ipv4_withdrawal other addPathMap nextHop routes
  | ipv6 nextHopGlobal nextHopLocal routes =>
      obtain rfl : routes = [] := by simpa [UnicastRoutes.IsIpv4, UnicastRoutes.routes] using benign
      rfl

/-- With the empty map an IPv6 withdrawal names no path: the decoder takes every route
    to come without an identifier. -/
theorem MpUnreach.fromWire_pathId {other : OtherFamilies} {extendedLength : Bool}
    {bytes rest : List UInt8} {nlri : List Ipv6UnicastAddress}
    (h : MpUnreach.fromWire other extendedLength ∅ bytes = .ok (.ipv6Unicast nlri, rest)) :
    ∀ route ∈ nlri, route.pathId = none := by
  obtain ⟨mpBuf, left, -, framed⟩ := ok_of_bind h
  obtain ⟨left, decoded⟩ := ok_of_within framed
  obtain ⟨addrType, nlriBuf, -, branch⟩ := ok_of_bind decoded
  cases addrType with
  | ipv4Unicast =>
      obtain ⟨nlri, left, -, built⟩ := ok_of_bind branch
      cases built
  | ipv6Unicast =>
      obtain ⟨decodedNlri, left, looped, built⟩ := ok_of_bind branch
      cases built
      refine tillEmpty_forall ((Ipv6UnicastAddress.fromWire_consumes false).mapErr _) ?_ looped
      intro buf route rest parsed
      obtain ⟨network, rfl⟩ := addressFromWire_pathId (ok_of_mapErr parsed)
      rfl
  | other afi safi =>
      obtain ⟨-, left, -, built⟩ := ok_of_bind branch
      cases built

/-! ## The table -/

theorem Update.tryFrom_ofUnreach (announced : UnicastRoutes) :
    Update.tryFrom (.ofUnreach announced.unreach) = .ok ⟨[], announced.routes⟩ := by
  cases announced <;> rfl

/-- Withdrawing what was announced clears it, whatever the table held. -/
theorem Controller.receive_unreach (c : Controller) (announced : UnicastRoutes) {route : Route}
    (member : route ∈ announced.routes) :
    (c.receive (.ofUnreach announced.unreach)).rib.nexthop? route = none := by
  rw [receive, Update.tryFrom_ofUnreach]
  change (c.applyUpdate ⟨[], announced.routes⟩).rib.nexthop? route = none
  rw [rib_applyUpdate, Rib.nexthop?_foldl]
  exact final_deletes member _

/-- The law holds of every list of IPv4 routes, and of no list of IPv6 routes but the
    empty one. -/
theorem symmetric_iff_ipv4_or_empty (other : OtherFamilies) (announced : UnicastRoutes)
    (reserved : UInt8) (reachExtended unreachExtended : Bool)
    (reachFits : Fits reachExtended (announced.reachBytes reserved))
    (unreachFits : Fits unreachExtended announced.unreachBytes) :
    Symmetric other announced reserved reachExtended unreachExtended ↔
      announced.IsIpv4 ∨ announced.routes = [] := by
  constructor
  · intro symmetric
    cases announced with
    | ipv4 nextHop routes => exact .inl trivial
    | ipv6 nextHopGlobal nextHopLocal routes =>
        have decoded := symmetric.unreach []
        have unnamed := MpUnreach.fromWire_pathId decoded
        cases routes with
        | nil => exact .inr rfl
        | cons route rest => cases unnamed route.address (by simp)
  · intro benign
    have reach := framed_reads MpReach.eof reachFits
      (MpReach.body_reachBytes other ∅ announced reserved)
    have unreach := framed_reads MpUnreach.eof unreachFits (withdrawal_of_benign other ∅ benign)
    refine ⟨reach, unreach, ?_⟩
    intro decodedReach decodedUnreach hreach hunreach c route member
    have same := hunreach.symm.trans (List.append_nil (frame _ _) ▸ unreach [])
    obtain ⟨rfl, -⟩ := Prod.mk.inj (Except.ok.inj same)
    exact Controller.receive_unreach _ announced member

def OtherFamilies.rejected : OtherFamilies :=
  ⟨fun _ _ => fail .other, fun _ _ => fail .other⟩

/-- Path 7 of `10.1.0.0/20` and path 8 of the default route, over an IPv6 next hop. -/
private def privateRange : UnicastRoutes :=
  .ipv4 (.v6 (.new 0x2001 0xdb8 0 0 0 0 0 1) none)
    [⟨7, ⟨.clamped (.new 10 1 0 0) 20, by decide⟩, by decide⟩,
      ⟨8, ⟨.clamped (.new 0 0 0 0) 0, by decide⟩, by decide⟩]

theorem privateRange_symmetric : Symmetric .rejected privateRange 0 true false :=
  (symmetric_iff_ipv4_or_empty .rejected privateRange 0 true false (by decide) (by decide)).mpr
    (.inl trivial)

/-- Path 1 of `2001:db8::/40`. -/
private def documentation : UnicastRoutes :=
  .ipv6 (.new 0x2001 0xdb8 0 0 0 0 0 1) none
    [⟨1, ⟨.clamped (.new 0x2001 0xdb8 0 0 0 0 0 0) 40, by decide⟩, by decide⟩]

/-- `::/0` three times, `2800::/1` and `10d:b800::/32`, all without a path. -/
private def astray : List Ipv6UnicastAddress :=
  [⟨none, ⟨.clamped (.new 0 0 0 0 0 0 0 0) 0, by decide⟩⟩,
    ⟨none, ⟨.clamped (.new 0 0 0 0 0 0 0 0) 0, by decide⟩⟩,
    ⟨none, ⟨.clamped (.new 0 0 0 0 0 0 0 0) 0, by decide⟩⟩,
    ⟨none, ⟨.clamped (.new 0x2800 0 0 0 0 0 0 0) 1, by decide⟩⟩,
    ⟨none, ⟨.clamped (.new 0x10d 0xb800 0 0 0 0 0 0) 32, by decide⟩⟩]

/-- The octets that announce the route parse as a withdrawal of other prefixes. -/
theorem documentation_withdrawn_astray :
    MpUnreach.fromWire .rejected false ∅ (frame false documentation.unreachBytes) =
        .ok (.ipv6Unicast astray, []) ∧
      ¬ Symmetric .rejected documentation 0 false false := by
  refine ⟨rfl, fun symmetric => ?_⟩
  have unnamed := MpUnreach.fromWire_pathId (symmetric.unreach [])
  cases unnamed _ (List.mem_cons_self ..)

end Erez.Daemon
