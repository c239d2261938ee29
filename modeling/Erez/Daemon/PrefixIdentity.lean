import Erez.Daemon.Interference
import Erez.Wire.Nlri

/-! # Two identities of a prefix

The RIB tells prefixes apart by family, address and length, host bits included;
the FIB by the leading bits of the mapped address. The decoder keeps the bits a
peer sends past the prefix length, so one network can be several keys of the RIB
and still have one entry in the FIB, and so can an IPv4 network and its mapped
form.
-/

namespace Erez.Daemon

namespace IpNet

/-- An NLRI that some UPDATE message carries. -/
def Decodable : IpNet → Prop
  | .v4 net => ∃ addPath buf nlri rest,
      Ipv4UnicastAddress.fromWire addPath buf = .ok (nlri, rest) ∧
        (Route.ofIpv4 nlri).nlri = .v4 net
  | .v6 net => ∃ addPath buf nlri rest,
      Ipv6UnicastAddress.fromWire addPath buf = .ok (nlri, rest) ∧
        (Route.ofIpv6 nlri).nlri = .v6 net

/-- The same addresses of the same family, whatever the host bits. -/
def SameNetwork : IpNet → IpNet → Prop
  | .v4 net, .v4 other => net.network = other.network
  | .v6 net, .v6 other => net.network = other.network
  | .v4 _, .v6 _ | .v6 _, .v4 _ => False

/-- One is an IPv4 network, the other the IPv6 network of its mapped addresses. -/
def MappedTwin : IpNet → IpNet → Prop
  | .v4 net, .v6 twin | .v6 twin, .v4 net => twin.network = mappedPrefix ++ net.network
  | .v4 _, .v4 _ | .v6 _, .v6 _ => False

def Clashes (nlri other : IpNet) : Prop :=
  nlri.SameNetwork other ∨ nlri.MappedTwin other

instance (nlri other : IpNet) : Decidable (nlri.SameNetwork other) :=
  match nlri, other with
  | .v4 _, .v4 _ | .v6 _, .v6 _ => inferInstanceAs (Decidable (_ = _))
  | .v4 _, .v6 _ | .v6 _, .v4 _ => .isFalse id

instance (nlri other : IpNet) : Decidable (nlri.MappedTwin other) :=
  match nlri, other with
  | .v4 _, .v6 _ | .v6 _, .v4 _ => inferInstanceAs (Decidable (_ = _))
  | .v4 _, .v4 _ | .v6 _, .v6 _ => .isFalse id

instance (nlri other : IpNet) : Decidable (nlri.Clashes other) :=
  inferInstanceAs (Decidable (_ ∨ _))

/-- Networks clash when the trie has one node for both. -/
theorem node_eq_iff {nlri other : IpNet} : nlri.node = other.node ↔ nlri.Clashes other := by
  cases nlri with
  | v4 net =>
      cases other with
      | v4 other => simp [node, node_v4, Clashes, SameNetwork, MappedTwin]
      | v6 other =>
          simp only [node, node_v4, node_v6, Clashes, SameNetwork, MappedTwin, false_or]
          exact eq_comm
  | v6 net =>
      cases other with
      | v4 other => simp [node, node_v4, node_v6, Clashes, SameNetwork, MappedTwin]
      | v6 other => simp [node, node_v6, Clashes, SameNetwork, MappedTwin]

end IpNet

namespace Controller

theorem installed_withdraw (c : Controller) (route : Route) {nlri : Nlri}
    (apart : nlri.node ≠ route.nlri.node) : (c.withdraw route).installed nlri = c.installed nlri := by
  rw [installed, withdraw, get?_updateFib, if_neg apart]
  rfl

theorem paths_withdraw (c : Controller) (route : Route) :
    (c.withdraw route).rib.paths route.nlri =
      Rib.retainOthers (c.rib.paths route.nlri) route.pathId := by
  have rib : (c.withdraw route).rib = c.rib.remove route := rib_settle _ _
  rw [rib, Rib.paths_remove, if_pos rfl]

/-- The two tables agree on whether two NLRIs are one prefix. -/
structure Separate (nlri other : Nlri) : Prop where
  nodes : nlri ≠ other → nlri.node ≠ other.node
  kept : nlri ≠ other → ∀ (c : Controller) (pathId : PathId),
    (c.withdraw ⟨pathId, other⟩).installed nlri = c.installed nlri
  cleared : nlri.SameNetwork other → ∀ (c : Controller) (pathId : PathId) (nexthop : Nexthop),
    ∀ path ∈ ((c.announce nexthop ⟨pathId, nlri⟩).withdraw ⟨pathId, other⟩).rib.paths nlri,
      path.1 ≠ pathId

theorem separate_self (nlri : Nlri) : Separate nlri nlri where
  nodes := fun apart => absurd rfl apart
  kept := fun apart => absurd rfl apart
  cleared := by
    intro same c pathId nexthop path member
    rw [paths_withdraw _ ⟨pathId, nlri⟩] at member
    exact (Rib.mem_retainOthers.mp member).2

theorem separate_of_not_clashes {nlri other : Nlri} (apart : ¬ nlri.Clashes other) :
    Separate nlri other := by
  have nodes : nlri.node ≠ other.node := fun same => apart (IpNet.node_eq_iff.mp same)
  exact {
    nodes := fun _ => nodes
    kept := fun _ c pathId => installed_withdraw c ⟨pathId, other⟩ nodes
    cleared := fun same => absurd (.inl same) apart }

theorem separate_iff_not_clashes (nlri other : Nlri) :
    Separate nlri other ↔ nlri = other ∨ ¬ nlri.Clashes other := by
  constructor
  · intro separate
    by_cases same : nlri = other
    · exact .inl same
    · exact .inr fun clash => separate.nodes same (IpNet.node_eq_iff.mpr clash)
  · intro condition
    cases condition with
    | inl same =>
        subst same
        exact separate_self nlri
    | inr apart => exact separate_of_not_clashes apart

section OneNetwork

/-- 10.16.0.0/12, as a peer should send it. -/
private def masked : Nlri := .v4 (.clamped (.new 10 16 0 0) 12)

/-- The same network with a host bit left on. -/
private def unmasked : Nlri := .v4 (.clamped (.new 10 17 0 0) 12)

private def onlyHop : Nexthop := .v4 (.new 192 0 2 1)

private def misdirected : Controller :=
  (new.announce onlyHop ⟨some 1, masked⟩).withdraw ⟨some 1, unmasked⟩

/-- The withdrawal misses the route in the RIB and takes its entry out of the FIB. -/
theorem unmasked_withdrawal_astray :
    masked.Decodable ∧ unmasked.Decodable ∧ ¬ Separate masked unmasked ∧
      misdirected.rib.nexthops masked = [onlyHop] ∧ misdirected.installed masked = none := by
  have routed : misdirected.rib.paths masked = [(some 1, onlyHop)] := by decide +kernel
  refine ⟨⟨false, [12, 10, 16], ⟨none, ⟨.clamped (.new 10 16 0 0) 12, by decide⟩⟩, [], ?_, rfl⟩,
    ⟨false, [12, 10, 17], ⟨none, ⟨.clamped (.new 10 17 0 0) 12, by decide⟩⟩, [], ?_, rfl⟩, ?_, ?_,
    ?_⟩
  · decide +kernel
  · decide +kernel
  · intro separate
    have same : masked.SameNetwork unmasked := by decide
    refine separate.cleared same new (some 1) onlyHop (some 1, onlyHop) ?_ rfl
    change (some 1, onlyHop) ∈ misdirected.rib.paths masked
    rw [routed]
    exact List.mem_singleton_self _
  · rw [Rib.nexthops, routed]
    rfl
  · decide +kernel

end OneNetwork

end Controller

end Erez.Daemon
