import Erez.Ebpf.AllOrNothing
import Erez.Ebpf.Checksum
import Erez.Ebpf.Stickiness
import Erez.Ebpf.Untouched

/-! # From one host to the other

A packet is encapsulated on one host, goes its way to the nexthop, and is unwrapped and
sent on there. Between the link it came in on and the one it leaves by it loses one
hop, and its checksum is right again.
-/

namespace Erez.Ebpf

open Erez.Daemon Erez.Lib ByteBuffer OnesComplement

/-! ## On the way -/

/-- On its way a frame gets other link addresses, and its outer header another hop limit. -/
def carried (frame : Frame) (macs : Vector UInt8 12) (hopLimit : UInt8) : Frame :=
  patch (macs.toList ++ frame.drop 12) (ethHdrLen + 7) [hopLimit]

/-- The parser does not look at the hop limit. -/
theorem decapPktParse_patch_hopLimit {data : Frame} (long : ethHdrLen + 8 ≤ data.length)
    (hopLimit : UInt8) (metrics : Metrics) :
    decapPktParse (patch data (ethHdrLen + 7) [hopLimit]) metrics = decapPktParse data metrics := by
  have unseen {start len : ℕ} (outside : start + len ≤ ethHdrLen + 7 ∨ ethHdrLen + 8 ≤ start) :
      load (patch data (ethHdrLen + 7) [hopLimit]) start len = load data start len :=
    load_patch_outside long outside
  simp only [decapPktParse, unseen (show 12 + 2 ≤ ethHdrLen + 7 ∨ _ from .inl (by decide)),
    unseen (show ethHdrLen + 6 + 1 ≤ ethHdrLen + 7 ∨ _ from .inl (by decide)),
    unseen (show _ ∨ ethHdrLen + 8 ≤ ethHdrLen + ipv6HdrLen + 2 from .inr (by decide)),
    unseen (show _ ∨ ethHdrLen + 8 ≤ ethHdrLen + 24 from .inr (by decide))]

section Carried

variable {data : Frame} (long : 12 ≤ data.length) (l3Proto : UInt16) (saddr nexthop : CIpv6Addr)
  (macs : Vector UInt8 12) (hopLimit : UInt8)

include long

theorem carried_encapsulation :
    ∃ payloadLen, carried (encapsulation data l3Proto saddr nexthop) macs hopLimit =
      patch (macs.toList ++ (outerHeaders payloadLen saddr nexthop l3Proto ++
        data.drop ethHdrLen)) (ethHdrLen + 7) [hopLimit] := by
  have front : (data.take 12).length = 12 := List.length_take_of_le long
  rw [carried, encapsulation, List.drop_left' front]
  exact ⟨_, rfl⟩

theorem decapPktParse_carried (valid : validEncapL3Proto l3Proto = true) (metrics : Metrics) :
    decapPktParse (carried (encapsulation data l3Proto saddr nexthop) macs hopLimit) metrics =
      (.ok ⟨l3Proto, nexthop⟩, metrics) := by
  obtain ⟨payloadLen, layout⟩ :=
    carried_encapsulation long l3Proto saddr nexthop macs hopLimit
  rw [layout, decapPktParse_patch_hopLimit (by simp [outerHeaders, ethHdrLen]; omega)]
  exact decapPktParse_layout metrics macs.length_toList payloadLen saddr nexthop valid

/-- The inner packet comes through. -/
theorem drop_carried :
    (carried (encapsulation data l3Proto saddr nexthop) macs hopLimit).drop
      (ethHdrLen + encapLen) = data.drop ethHdrLen := by
  obtain ⟨payloadLen, layout⟩ :=
    carried_encapsulation long l3Proto saddr nexthop macs hopLimit
  have headers : (macs.toList ++ outerHeaders payloadLen saddr nexthop l3Proto).length =
      ethHdrLen + encapLen := by
    simp [outerHeaders, ethHdrLen, encapLen]
  rw [layout, drop_patch_behind (by simp [outerHeaders, ethHdrLen]; omega)
    (by simp [ethHdrLen, encapLen]), ← List.append_assoc, List.drop_left' headers]

end Carried

/-! ## Where it is sent on -/

/-- What leaves by a route of an IPv4 packet: its header with one hop less and a right
    checksum, and the rest as it was. -/
def sentOn (route : FibRoute) (header : Ipv4Header) (payload : List UInt8) : Frame :=
  route.dmac.toList ++ (route.smac.toList ++ (be16 ethP_IP ++
    (header.decremented.bytes (checksum header.decremented.words) ++ payload)))

theorem patch_addresses {data : Frame} (whole : 12 ≤ data.length) (dmac smac : Vector UInt8 6) :
    patch (patch data 0 dmac.toList) 6 smac.toList =
      dmac.toList ++ (smac.toList ++ data.drop 12) := by
  have parts : data = data.take 6 ++ ((data.drop 6).take 6 ++ data.drop 12) := by
    rw [← List.drop_drop (i := 6) (j := 6), List.take_append_drop, List.take_append_drop]
  have first : (data.take 6).length = dmac.toList.length := by
    rw [List.length_take, Vector.length_toList]
    omega
  have second : ((data.drop 6).take 6).length = smac.toList.length := by
    rw [List.length_take, List.length_drop, Vector.length_toList]
    omega
  conv_lhs => rw [parts]
  rw [patch_here first, patch_right (by simp), Vector.length_toList, Nat.sub_self,
    patch_here second]

section SentOn

variable {env : DecapEnv} {ctx : XdpMd} {metrics : Metrics} {pkt : DecapPacket}
  {header : Ipv4Header} {payload : List UInt8}

/-- The first stage on an unwrapped packet. -/
theorem decrement_ipv4 (parsed : (decapPktParse ctx.data metrics).1 = .ok pkt)
    (ipv4 : pkt.innerL3Proto = ethP_IP)
    (inner : ctx.data.drop (ethHdrLen + encapLen) =
      header.bytes (checksum header.words) ++ payload)
    (more : 1 < header.ttl)
    (whole : ipv4HdrLen ≤ (header.bytes (checksum header.words) ++ payload).length) :
    decapPktDecrementInnerTtl (unwrapped ctx.data pkt) pkt.innerL3Proto =
      some ((ctx.data.take 12 ++ be16 ethP_IP) ++
        (header.decremented.bytes (checksum header.decremented.words) ++ payload)) := by
  have long := (decapPktParse_ok parsed).1
  have ethLength : (ctx.data.take 12 ++ be16 ethP_IP).length = ethHdrLen := by
    simp only [ethHdrLen, encapLen] at long ⊢
    simp
    omega
  have layout : unwrapped ctx.data pkt = (ctx.data.take 12 ++ be16 ethP_IP) ++
      (header.bytes (checksum header.words) ++ payload) := by
    rw [unwrapped, ipv4, inner, List.append_assoc]
  have reaches : ethHdrLen + ipv4HdrLen ≤ ((ctx.data.take 12 ++ be16 ethP_IP) ++
      (header.bytes (checksum header.words) ++ payload)).length := by
    rw [List.length_append, ethLength]
    exact Nat.add_le_add_left whole _
  have decremented := decrementInnerTtl_ipv4 .little header _ ethLength more reaches
    (refreshCheck_checksum .little more)
  rw [decrementInnerTtl_little, layout, ipv4, decremented]
  rfl

/-- An IPv4 packet with a right checksum that is unwrapped and has a route. -/
theorem erezDecap_sendsOn (counted : env.metricsFound = true) (adjusted : env.adjustHead = true)
    (parsed : (decapPktParse ctx.data metrics).1 = .ok pkt) (ipv4 : pkt.innerL3Proto = ethP_IP)
    (inner : ctx.data.drop (ethHdrLen + encapLen) =
      header.bytes (checksum header.words) ++ payload)
    (more : 1 < header.ttl)
    (whole : ipv4HdrLen ≤ (header.bytes (checksum header.words) ++ payload).length)
    {route : FibRoute}
    (looked : env.fibLookup ⟨ctx.ingressIfindex, .ofCIpv6Addr pkt.nexthop⟩ = some route) :
    (erezDecap env ctx metrics).frame = sentOn route header payload ∧
      (erezDecap env ctx metrics).act =
        if route.ifindex = ctx.ingressIfindex then .pass else env.redirect route.ifindex := by
  have aged := decrement_ipv4 parsed ipv4 inner more whole
  have alive := (decrement_unwrapped parsed).mp (by rw [aged]; rfl)
  refine ⟨?_, (erezDecap_written counted adjusted parsed looked alive).2⟩
  have long := (decapPktParse_ok parsed).1
  have front : (ctx.data.take 12).length = 12 := by
    simp only [ethHdrLen, encapLen] at long
    simp
    omega
  obtain ⟨length, behind⟩ := decrementInnerTtl_length aged
  rw [erezDecap_unwrapped counted adjusted parsed]
  simp only [decapPktForwardToNexthop, looked, aged, length, gt_iff_lt, not_lt.mpr behind, if_false]
  have written : ∀ tail, patch (patch ((ctx.data.take 12 ++ be16 ethP_IP) ++ tail) 0
      route.dmac.toList) 6 route.smac.toList =
        route.dmac.toList ++ (route.smac.toList ++ (be16 ethP_IP ++ tail)) := by
    intro tail
    rw [patch_addresses (by simp [front]), List.append_assoc, List.drop_left' front]
  rw [written]
  split
  · rfl
  · split <;> rfl

end SentOn

/-! ## From end to end -/

variable {Sock : Type*} [DecidableEq Sock]

/-- What a packet that the program counts as encapsulated leaves as. -/
theorem encapsulates_eq {env : EncapEnv} {maps : Maps Sock} {skb : Skb Sock}
    {nexthop : CIpv6Addr} (steered : Encapsulates env maps skb nexthop) :
    12 ≤ skb.data.length ∧ ∃ saddr, (erezEncap env maps skb).frame =
      encapsulation skb.data skb.protocol saddr nexthop := by
  obtain ⟨pkt, protocol, wrapped, -⟩ := steered.origin
  obtain ⟨saddr, -, layout⟩ := encapsulate_eq wrapped
  obtain ⟨parts, -, frame, -⟩ := encapsulate_layout wrapped
  rw [protocol] at layout
  refine ⟨?_, _, layout⟩
  rw [← frame, Parts.frame, List.length_append, parts.macs_length]
  exact Nat.le_add_right _ _

/-- A packet that one host steers to a nexthop leaves that nexthop's host as it came, but for
    one hop and its checksum, whatever link addresses and hop limit it got on the way. -/
theorem steered_packet_sentOn {env : EncapEnv} {maps : Maps Sock} {skb : Skb Sock}
    {nexthop : CIpv6Addr} (steered : Encapsulates env maps skb nexthop)
    (ipv4 : skb.protocol = ethP_IP) {header : Ipv4Header} {payload : List UInt8}
    (packet : skb.data.drop ethHdrLen = header.bytes (checksum header.words) ++ payload)
    (more : 1 < header.ttl)
    (whole : ipv4HdrLen ≤ (header.bytes (checksum header.words) ++ payload).length)
    {there : DecapEnv} (counted : there.metricsFound = true) (adjusted : there.adjustHead = true)
    {ctx : XdpMd} {macs : Vector UInt8 12} {hopLimit : UInt8}
    (arrived : ctx.data = carried (erezEncap env maps skb).frame macs hopLimit) {route : FibRoute}
    (looked : there.fibLookup ⟨ctx.ingressIfindex, .ofCIpv6Addr nexthop⟩ = some route)
    (metrics : Metrics) :
    (erezDecap there ctx metrics).frame = sentOn route header payload ∧
      (erezDecap there ctx metrics).act =
        if route.ifindex = ctx.ingressIfindex then .pass else there.redirect route.ifindex := by
  obtain ⟨long, saddr, layout⟩ := encapsulates_eq steered
  rw [layout] at arrived
  have parsed : decapPktParse ctx.data metrics = (.ok ⟨skb.protocol, nexthop⟩, metrics) := by
    rw [arrived]
    exact decapPktParse_carried long _ _ _ macs hopLimit (by rw [ipv4]; decide) metrics
  have inner : ctx.data.drop (ethHdrLen + encapLen) =
      header.bytes (checksum header.words) ++ payload := by
    rw [arrived, drop_carried long, packet]
  exact erezDecap_sendsOn counted adjusted (congrArg Prod.fst parsed) ipv4 inner more whole looked

section OneDatagram

/-- An IPv4 header with 64 hops to go. -/
private def datagramHeader : Ipv4Header where
  front := [0x4500, 20, 0, 0]
  ttl := 64
  protocol := 17
  rest := [0xC633, 0x6407, 0xCB00, 0x7109]
  front_length := rfl

private def wholeDatagram : Skb ℕ where
  data := (udpTo none (.new 203 0 113 9)).data.take 14 ++
    datagramHeader.bytes (checksum datagramHeader.words)
  protocol := ethP_IP
  sk := some 7

private def steeredHop : CIpv6Addr := .ofIpAddr (.v4 (.new 192 0 2 1))

/-- The socket has a nexthop. -/
private def settled : Maps ℕ :=
  ⟨∅, fun _ => some ⟨⟨128, steeredHop⟩, steeredHop⟩, Metrics.zero⟩

private def exitHost : DecapEnv :=
  ⟨true, true, fun _ => some ⟨3, .replicate 6 3, .replicate 6 4⟩, fun _ => .redirect⟩

theorem steered_datagram_sentOn :
    let ctx : XdpMd := ⟨carried (erezEncap .smooth settled wholeDatagram).frame
      (.replicate 12 5) 254, 2⟩
    (erezDecap exitHost ctx Metrics.zero).frame =
        sentOn ⟨3, .replicate 6 3, .replicate 6 4⟩ datagramHeader [] ∧
      (erezDecap exitHost ctx Metrics.zero).act = .redirect :=
  steered_packet_sentOn
    (show Encapsulates .smooth settled wholeDatagram steeredHop from
      ⟨by decide +kernel, by decide +kernel⟩)
    rfl (by decide +kernel) (by decide) (by decide +kernel) rfl rfl rfl rfl Metrics.zero

end OneDatagram

end Erez.Ebpf
