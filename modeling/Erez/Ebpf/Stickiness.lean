import Erez.Ebpf.Encap

/-! # Histories of the encapsulation program

Packets of any sockets interleave with FIB writes of userspace. The invariant is
about where each stored nexthop came from: from the FIB entry that the destination
of some packet of that very socket matched when the packet passed.
-/

namespace Erez.Ebpf

open Erez.Daemon Erez.Lib ByteBuffer

variable {Sock : Type*}

/-- What one packet may do to the maps, and where its nexthop may come from. -/
structure Passes (env : EncapEnv) (maps : Maps Sock) (skb : Skb Sock)
    (result : EncapResult Sock) : Prop where
  fib : result.maps.fib = maps.fib
  sticky : ∀ sock sticky, result.maps.sticky sock = some sticky →
    maps.sticky sock = some sticky ∨ (skb.sk = some sock ∧ Offered maps skb sticky.nexthop)
  origin : result.maps.metrics .encapEncapsulatedPacketsTotal =
      maps.metrics .encapEncapsulatedPacketsTotal ∨
    ∃ pkt nexthop, pkt.l3Proto = skb.protocol ∧
      encapPktEncapsulateIp6Gre env skb.data pkt nexthop = .ok result.frame ∧
      ((∃ sock sticky, skb.sk = some sock ∧ maps.sticky sock = some sticky ∧
        sticky.nexthop = nexthop) ∨ Offered maps skb nexthop)

/-- The outer destination of an encapsulated frame. -/
theorem outer_dest {env : EncapEnv} {data : Frame} {pkt : EncapPacket} {nexthop : CIpv6Addr}
    {out : Frame} (h : encapPktEncapsulateIp6Gre env data pkt nexthop = .ok out) :
    slice out (ethHdrLen + 24) 16 = nexthop.octets.toList := by
  obtain ⟨parts, saddr, -, -, rfl⟩ := encapsulate_layout h
  simp (disch := simp [parts.macs_length]) only [outerHeaders, List.append_assoc, slice_right,
    slice_here, parts.macs_length, ethHdrLen, length_be16, List.length_cons, List.length_nil,
    Vector.length_toList, Nat.reduceAdd, Nat.reduceSub]

variable [DecidableEq Sock]

theorem passes_erezEncap (env : EncapEnv) (maps : Maps Sock) (skb : Skb Sock) :
    Passes env maps skb (erezEncap env maps skb) := by
  have processed : (maps.bump .encapProcessedPacketsTotal).metrics .encapEncapsulatedPacketsTotal =
      maps.metrics .encapEncapsulatedPacketsTotal := maps.bump_metrics_other (by decide)
  have offered : ∀ {addr nexthop}, destOf skb.data skb.protocol = some addr →
      (∃ entry, maps.fib.lookup ⟨128, .ofIpAddr addr⟩ = some entry ∧ nexthop ∈ entry.active) →
      Offered maps skb nexthop := by
    rintro addr nexthop dest ⟨entry, matched, inUse⟩
    exact ⟨addr, entry, dest, matched, inUse⟩
  have sticky : ∀ {addr chosen after}, destOf skb.data skb.protocol = some addr →
      Chooses (maps.bump .encapProcessedPacketsTotal) skb.sk ⟨128, .ofIpAddr addr⟩ chosen after →
      ∀ sock sticky, after.sticky sock = some sticky → maps.sticky sock = some sticky ∨
        (skb.sk = some sock ∧ Offered maps skb sticky.nexthop) := by
    intro addr chosen after dest choice sock sticky kept
    exact (choice.sticky sock sticky kept).imp id (And.imp id (offered dest))
  have outcome := outcome_erezEncap env maps skb
  generalize erezEncap env maps skb = result at outcome ⊢
  cases outcome with
  | uncounted => exact ⟨rfl, fun _ _ kept => .inl kept, .inl rfl⟩
  | skipped listed =>
      have other : ∀ counter ∈ encapParseExits,
          Counter.encapEncapsulatedPacketsTotal ≠ counter := by decide
      exact ⟨rfl, fun _ _ kept => .inl kept,
        .inl ((Maps.bump_metrics_other _ (other _ listed)).trans processed)⟩
  | unsteered dest choice =>
      have chosen := choice.chooses
      exact ⟨chosen.fib, sticky dest chosen, .inl (chosen.uncounted.trans processed)⟩
  | @failed _ _ _ after _ dest choice =>
      have chosen := choice.chooses
      have kept := sticky dest chosen
      have uncounted := chosen.uncounted.trans processed
      exact ⟨chosen.fib, kept, .inl ((after.bump_metrics_other (by decide)).trans uncounted)⟩
  | encapsulated dest choice protocol wrapped =>
      have chosen := choice.chooses
      have kept := sticky dest chosen
      refine ⟨chosen.fib, kept, .inr ⟨_, _, protocol, wrapped, ?_⟩⟩
      exact (chosen.origin _ rfl).imp id (offered dest)

/-- A packet that counts as encapsulated is, and its nexthop has been stored or is offered. -/
theorem Encapsulates.origin {env : EncapEnv} {maps : Maps Sock} {skb : Skb Sock}
    {nexthop : CIpv6Addr} (encapsulates : Encapsulates env maps skb nexthop) :
    ∃ pkt, pkt.l3Proto = skb.protocol ∧
      encapPktEncapsulateIp6Gre env skb.data pkt nexthop = .ok (erezEncap env maps skb).frame ∧
      ((∃ sock sticky, skb.sk = some sock ∧ maps.sticky sock = some sticky ∧
        sticky.nexthop = nexthop) ∨ Offered maps skb nexthop) := by
  obtain ⟨counted, outer⟩ := encapsulates
  rcases (passes_erezEncap env maps skb).origin with
    uncounted | ⟨pkt, chosen, protocol, wrapped, origin⟩
  · rw [uncounted] at counted
    exact absurd (left_eq_add.mp counted) (by decide)
  · obtain rfl : chosen = nexthop := by
      have octets := Vector.toList_inj.mp ((outer_dest wrapped).symm.trans outer)
      cases chosen
      cases nexthop
      simpa using octets
    exact ⟨pkt, protocol, wrapped, origin⟩

/-! ## Runs -/

/-- What happens to the maps: userspace writes the FIB, or a packet passes. -/
inductive KernelEvent (Sock : Type*) where
  | update (key : CNlri) (entry : CFibEntry)
  | delete (key : CNlri)
  | packet (env : EncapEnv) (skb : Skb Sock)

def Maps.step (maps : Maps Sock) : KernelEvent Sock → Maps Sock
  | .update key entry => { maps with fib := FiniteMap.insert maps.fib key.node entry }
  | .delete key => { maps with fib := FiniteMap.erase maps.fib key.node }
  | .packet env skb => (erezEncap env maps skb).maps

def Maps.run (maps : Maps Sock) (events : List (KernelEvent Sock)) : Maps Sock :=
  events.foldl Maps.step maps

theorem Maps.run_concat (maps : Maps Sock) (events : List (KernelEvent Sock))
    (event : KernelEvent Sock) : maps.run (events ++ [event]) = (maps.run events).step event :=
  List.foldl_concat _ _ _ _

/-- In the run so far, a packet of the socket had a destination that offered the nexthop
    when the packet passed. -/
def OfferedBefore (start : Maps Sock) (events : List (KernelEvent Sock)) (sock : Sock)
    (nexthop : CIpv6Addr) : Prop :=
  ∃ earlier env skb, earlier ++ [.packet env skb] <+: events ∧ skb.sk = some sock ∧
    Offered (start.run earlier) skb nexthop

theorem OfferedBefore.concat {start : Maps Sock} {events : List (KernelEvent Sock)} {sock : Sock}
    {nexthop : CIpv6Addr} (h : OfferedBefore start events sock nexthop)
    (event : KernelEvent Sock) : OfferedBefore start (events ++ [event]) sock nexthop := by
  obtain ⟨earlier, env, skb, inside, socket, offered⟩ := h
  exact ⟨earlier, env, skb, inside.trans (List.prefix_append _ _), socket, offered⟩

/-- Every stored nexthop was once offered to a packet of its socket. -/
theorem sticky_offeredBefore {start : Maps Sock} (fresh : ∀ sock, start.sticky sock = none)
    (events : List (KernelEvent Sock)) {sock : Sock} {sticky : SocketStickyNexthop}
    (h : (start.run events).sticky sock = some sticky) :
    OfferedBefore start events sock sticky.nexthop := by
  induction events using List.reverseRecOn with
  | nil =>
      change start.sticky sock = some sticky at h
      rw [fresh sock] at h
      cases h
  | append_singleton events event ih =>
      rw [Maps.run_concat] at h
      cases event with
      | update key entry => exact (ih h).concat _
      | delete key => exact (ih h).concat _
      | packet env skb =>
          rcases (passes_erezEncap env (start.run events) skb).sticky sock sticky h with
            kept | ⟨socket, offered⟩
          · exact (ih kept).concat _
          · exact ⟨events, env, skb, List.prefix_rfl, socket, offered⟩

/-- An encapsulated packet goes to a nexthop that its own destination offers now, or
    that an earlier packet of the same socket was offered for its own destination. -/
theorem encapsulated_nexthop_offered (start : Maps Sock)
    (fresh : ∀ sock, start.sticky sock = none) (before : List (KernelEvent Sock))
    (env : EncapEnv) (skb : Skb Sock) (nexthop : CIpv6Addr)
    (encapsulates : Encapsulates env (start.run before) skb nexthop) :
    Offered (start.run before) skb nexthop ∨
      ∃ sock, skb.sk = some sock ∧ OfferedBefore start before sock nexthop := by
  obtain ⟨pkt, -, -, ⟨sock, sticky, socket, stored, rfl⟩ | offered⟩ := encapsulates.origin
  · exact .inr ⟨sock, socket, sticky_offeredBefore fresh before stored⟩
  · exact .inl offered

section TwoDestinations

private def routedDest : Ipv4Addr := .new 203 0 113 9

private def otherDest : Ipv4Addr := .new 192 88 99 1

private def routedNet : IpNet := .v4 (.clamped (.new 203 0 113 0) 24)

private def onlyHop : CIpv6Addr := .ofIpAddr (.v4 (.new 192 0 2 1))

private def nothing : Maps ℕ := ⟨∅, fun _ => none, Metrics.zero⟩

/-- One prefix is installed, and the socket sends to an address in it. -/
private def firstDatagram : List (KernelEvent ℕ) :=
  [.update (CNlri.ofIpNet routedNet) ⟨CNlri.ofIpNet routedNet, 1,
      packed maxNexthops [onlyHop] .unspecified, packed maxNexthops [10000] 0⟩,
    .packet .smooth (udpTo (some 7) routedDest)]

private theorem unrouted (n : Fin 3) :
    (nothing.run (firstDatagram.take n)).fib.lookup ⟨128, .ofIpAddr (.v4 otherDest)⟩ = none := by
  revert n
  decide +kernel

/-- The socket's next packet, to an address that no prefix covers, follows the first. -/
theorem steered_without_route :
    Encapsulates .smooth (nothing.run firstDatagram) (udpTo (some 7) otherDest) onlyHop ∧
      ∀ earlier, earlier <+: firstDatagram →
        ¬ Offered (nothing.run earlier) (udpTo (some 7) otherDest) onlyHop := by
  refine ⟨⟨by decide +kernel, by decide +kernel⟩, ?_⟩
  rintro earlier inside ⟨addr, entry, dest, found, -⟩
  have itself : destOf (udpTo (some 7) otherDest).data (udpTo (some 7) otherDest).protocol =
      some (.v4 otherDest) := by decide +kernel
  obtain rfl : .v4 otherDest = addr := Option.some.inj (itself.symm.trans dest)
  have short : earlier.length < 3 := Nat.lt_succ_of_le inside.length_le
  rw [List.prefix_iff_eq_take.mp inside, unrouted ⟨earlier.length, short⟩] at found
  cases found

theorem first_datagram_offered :
    Offered (nothing.run (firstDatagram.take 1)) (udpTo (some 7) routedDest) onlyHop ∨
      ∃ sock, (udpTo (some 7) routedDest).sk = some sock ∧
        OfferedBefore nothing (firstDatagram.take 1) sock onlyHop :=
  encapsulated_nexthop_offered nothing (fun _ => rfl) (firstDatagram.take 1) .smooth
    (udpTo (some 7) routedDest) onlyHop ⟨by decide +kernel, by decide +kernel⟩

end TwoDestinations

end Erez.Ebpf
