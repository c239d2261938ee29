import Erez.Daemon.Rib

/-! # BGP messages and the sessions they arrive on

The part of an UPDATE message that the daemon reads, and the task that turns what
one peer's state machine delivers into updates for the controller. Attributes,
address families and events that no branch looks into are one constructor each.
-/

namespace Erez.Daemon

/-! ## Unicast networks -/

def Ipv4Addr.isBroadcast (addr : Ipv4Addr) : Bool :=
  addr.octets = #v[255, 255, 255, 255]

def Ipv4Addr.isMulticast (addr : Ipv4Addr) : Bool :=
  (224 : UInt8) ≤ addr.octets[0] && addr.octets[0] ≤ 239

def Ipv6Addr.isMulticast (addr : Ipv6Addr) : Bool :=
  addr.octets[0] = 255

/-- The address as a number, most significant octet first. -/
def Ipv4Addr.toNat (addr : Ipv4Addr) : ℕ :=
  addr.octets.toList.foldl (fun n octet => n * 256 + octet.toNat) 0

def Ipv4Addr.ofNat (n : ℕ) : Ipv4Addr :=
  ⟨#v[(n / 2 ^ 24).toUInt8, (n / 2 ^ 16).toUInt8, (n / 2 ^ 8).toUInt8, n.toUInt8]⟩

/-- The last address of `hosts()`: the broadcast address is not a host, except in
    networks of one or two addresses. -/
def Ipv4Net.lastHost (net : Ipv4Net) : Ipv4Addr :=
  let size := 2 ^ (32 - net.prefixLen.toNat)
  let broadcast := net.addr.toNat / size * size + (size - 1)
  .ofNat (if net.prefixLen < 31 then broadcast - 1 else broadcast)

/-- What `Ipv4Unicast::from_net` checks. -/
def Ipv4Net.IsUnicast (net : Ipv4Net) : Prop :=
  (!net.addr.isBroadcast && !net.addr.isMulticast && !net.lastHost.isBroadcast &&
    !net.lastHost.isMulticast) = true

instance (net : Ipv4Net) : Decidable net.IsUnicast :=
  inferInstanceAs (Decidable (_ = _))

def Ipv6Net.IsUnicast (net : Ipv6Net) : Prop :=
  (!net.addr.isMulticast) = true

instance (net : Ipv6Net) : Decidable net.IsUnicast :=
  inferInstanceAs (Decidable (_ = _))

structure Ipv4Unicast where
  address : Ipv4Net
  unicast : address.IsUnicast
  deriving DecidableEq

structure Ipv6Unicast where
  address : Ipv6Net
  unicast : address.IsUnicast
  deriving DecidableEq

structure Ipv4UnicastAddress where
  pathId : PathId
  network : Ipv4Unicast
  deriving DecidableEq

structure Ipv6UnicastAddress where
  pathId : PathId
  network : Ipv6Unicast
  deriving DecidableEq

def Route.ofIpv4 (nlri : Ipv4UnicastAddress) : Route :=
  ⟨nlri.pathId, .v4 nlri.network.address⟩

def Route.ofIpv6 (nlri : Ipv6UnicastAddress) : Route :=
  ⟨nlri.pathId, .v6 nlri.network.address⟩

/-! ## UPDATE messages -/

inductive MpReach where
  | ipv4Unicast (nextHop : IpAddr) (nextHopLocal : Option Ipv6Addr)
      (nlri : List Ipv4UnicastAddress)
  | ipv6Unicast (nextHopGlobal : Ipv6Addr) (nextHopLocal : Option Ipv6Addr)
      (nlri : List Ipv6UnicastAddress)
  | other
  deriving DecidableEq

inductive MpUnreach where
  | ipv4Unicast (nlri : List Ipv4UnicastAddress)
  | ipv6Unicast (nlri : List Ipv6UnicastAddress)
  | other
  deriving DecidableEq

inductive PathAttributeValue where
  | origin
  | asPath
  | as4Path
  | nextHop (nextHop : Ipv4Addr)
  | mpReach (reach : MpReach)
  | mpUnreach (unreach : MpUnreach)
  | other
  deriving DecidableEq

structure BgpUpdateMessage where
  withdrawRoutes : List Ipv4UnicastAddress
  pathAttributes : List PathAttributeValue
  nlri : List Ipv4UnicastAddress
  deriving DecidableEq

namespace BgpUpdateMessage

def nextHop? (msg : BgpUpdateMessage) : Option Nexthop :=
  msg.pathAttributes.findSome? fun
    | .nextHop nh => some (.v4 nh)
    | _ => none

/-- The first MP_REACH_NLRI attribute, whatever its family. -/
def mpReach? (msg : BgpUpdateMessage) : Option MpReach :=
  msg.pathAttributes.findSome? fun
    | .mpReach reach => some reach
    | _ => none

def mpUnreach? (msg : BgpUpdateMessage) : Option MpUnreach :=
  msg.pathAttributes.findSome? fun
    | .mpUnreach unreach => some unreach
    | _ => none

end BgpUpdateMessage

/-- `Update::try_from`. -/
def Update.tryFrom (msg : BgpUpdateMessage) : Except String Update := do
  -- IPv4 advertised using "legacy" BGP.
  let legacy ←
    if msg.nlri = [] then .ok []
    else
      match msg.nextHop? with
      | some nexthop => .ok [⟨msg.nlri.map .ofIpv4, nexthop⟩]
      | none => .error "bgp update missing nexthop"
  let reached : List Announcement :=
    match msg.mpReach? with
    | some (.ipv4Unicast nextHop _ nlri) => [⟨nlri.map .ofIpv4, nextHop⟩]
    | some (.ipv6Unicast nextHopGlobal _ nlri) => [⟨nlri.map .ofIpv6, .v6 nextHopGlobal⟩]
    | _ => []
  let unreached : List Route :=
    match msg.mpUnreach? with
    | some (.ipv4Unicast nlri) => nlri.map .ofIpv4
    | some (.ipv6Unicast nlri) => nlri.map .ofIpv6
    | _ => []
  .ok ⟨legacy ++ reached, msg.withdrawRoutes.map .ofIpv4 ++ unreached⟩

/-! ## Sessions -/

inductive FsmState where
  | idle
  | connect
  | active
  | openSent
  | openConfirm
  | established
  deriving DecidableEq

inductive UpdateTreatment where
  | normal
  | attributeDiscard
  | treatAsWithdraw
  | resetAddressFamily (afi : UInt16) (safi : UInt8)
  | sessionReset
  deriving DecidableEq

inductive BgpEvent where
  | updateMsg (msg : BgpUpdateMessage) (treatment : UpdateTreatment)
  | other
  deriving DecidableEq

inductive FsmStateError where
  | bgpMessageWritingError
  | invalidConnectionStateTransition
  deriving DecidableEq

/-- One result of a peer's state machine. -/
abbrev FsmResult := Except FsmStateError (FsmState × BgpEvent)

/-- The update that a result makes the task send on, if any. -/
def FsmResult.update? : FsmResult → Option Update
  | .ok (.established, .updateMsg msg treatment) =>
      if treatment = .normal then (Update.tryFrom msg).toOption else none
  | _ => none

/-- The updates that the task of one peer sends; it stops at the first error. -/
def processBgpUpdates : List FsmResult → List Update
  | [] => []
  | .error _ :: _ => []
  | .ok result :: rest => (FsmResult.update? (.ok result)).toList ++ processBgpUpdates rest

end Erez.Daemon
