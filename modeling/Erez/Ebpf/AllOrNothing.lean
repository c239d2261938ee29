import Erez.Ebpf.Encap

/-! # A packet leaves as it came or wholly encapsulated

The exits of the tc program before the packet is resized let it go on as it is; once
it may have been resized, the only exit that lets it go on is the one behind the last
header field.
-/

namespace Erez.Ebpf

open Erez.Daemon Erez.Lib ByteBuffer

/-- The source address of a packet, by its EtherType. -/
def sourceOf (data : Frame) (l3Proto : UInt16) : Option IpAddr :=
  addrAt data l3Proto 12 8

/-- The packet behind its Ethernet addresses, an IPv6 header and a GRE header. -/
def encapsulation (data : Frame) (l3Proto : UInt16) (saddr nexthop : CIpv6Addr) : Frame :=
  data.take 12 ++ (outerHeaders ((data.length - ethHdrLen + 4) % 2 ^ 16).toUInt16 saddr nexthop
    l3Proto ++ data.drop ethHdrLen)

/-- What encapsulating returns, if it returns a frame, is the whole encapsulation. -/
theorem encapsulate_eq {env : EncapEnv} {data : Frame} {pkt : EncapPacket} {nexthop : CIpv6Addr}
    {out : Frame} (h : encapPktEncapsulateIp6Gre env data pkt nexthop = .ok out) :
    ∃ saddr, sourceOf data pkt.l3Proto = some saddr ∧
      out = encapsulation data pkt.l3Proto (.ofIpAddr saddr) nexthop := by
  obtain ⟨parts, stored, rfl, loaded, rfl⟩ := encapsulate_layout h
  obtain ⟨saddr, source, rfl⟩ := loadAddr_eq loaded
  refine ⟨saddr, source, ?_⟩
  have macs : parts.frame.take 12 = parts.macs := List.take_left' parts.macs_length
  have inner : parts.frame.drop ethHdrLen = parts.inner := by
    rw [parts.frame_eq, List.drop_left' parts.header_length]
  have payload : ((parts.frame.length - ethHdrLen + 4) % 2 ^ 16).toUInt16 =
      (4 + parts.inner.length).toUInt16 := by
    have length : parts.frame.length - ethHdrLen + 4 = 4 + parts.inner.length := by
      rw [← List.length_drop, inner, Nat.add_comm]
    rw [length]
    exact UInt16.ofNat_mod_size
  rw [encapsulation, macs, inner, payload]

variable {Sock : Type*}

variable [DecidableEq Sock]

/-- The nexthop that the program chooses for a packet: the socket's own, or the one
    selected from the matched entry. -/
def Chosen (env : EncapEnv) (maps : Maps Sock) (skb : Skb Sock) (nexthop : CIpv6Addr) : Prop :=
  ∃ pkt, (encapPktParse env skb (maps.bump .encapProcessedPacketsTotal).metrics).1 = .ok pkt ∧
    (chooseNexthop env (maps.bump .encapProcessedPacketsTotal) skb.sk pkt).1 = some nexthop

/-- A run of the program lets the packet through as it came, lets it through wholly
    encapsulated towards the chosen nexthop, or drops it. -/
theorem encap_all_or_nothing (env : EncapEnv) (maps : Maps Sock) (skb : Skb Sock) :
    ((erezEncap env maps skb).act = .ok ∧
      ((erezEncap env maps skb).frame = skb.data ∨
        ∃ saddr nexthop, sourceOf skb.data skb.protocol = some saddr ∧
          Chosen env maps skb nexthop ∧
          (erezEncap env maps skb).frame =
            encapsulation skb.data skb.protocol (.ofIpAddr saddr) nexthop)) ∨
      (erezEncap env maps skb).act = .shot := by
  unfold erezEncap
  split
  · exact .inr rfl
  · simp only
    rcases encapPktParse_cases env skb (maps.bump .encapProcessedPacketsTotal).metrics with
      ⟨exit, -, skipped⟩ | ⟨pkt, parsed⟩
    · simp only [skipped]
      exact .inl ⟨trivial, .inl trivial⟩
    · obtain ⟨protocol, -, -⟩ := encapPktParse_ok (congrArg Prod.fst parsed)
      rcases chosen : chooseNexthop env (maps.bump .encapProcessedPacketsTotal) skb.sk pkt with
        ⟨nexthop?, after⟩
      have sameChoice : chooseNexthop env { maps.bump .encapProcessedPacketsTotal with
          metrics := (maps.bump .encapProcessedPacketsTotal).metrics } skb.sk pkt =
          (nexthop?, after) := chosen
      simp only [parsed, sameChoice]
      cases nexthop? with
      | none => exact .inl ⟨rfl, .inl rfl⟩
      | some nexthop =>
          simp only [encapTowards]
          cases wrapped : encapPktEncapsulateIp6Gre env skb.data pkt nexthop with
          | error frame => exact .inr rfl
          | ok frame =>
              obtain ⟨saddr, source, layout⟩ := encapsulate_eq wrapped
              rw [protocol] at source layout
              exact .inl ⟨rfl, .inr ⟨saddr, nexthop, source,
                ⟨pkt, congrArg Prod.fst parsed, congrArg Prod.fst chosen⟩, layout⟩⟩

/-- A packet resized and then found too short is dropped, with the room open in it. -/
example :
    let nexthop : CIpv6Addr := .ofIpAddr (.v4 (.new 192 0 2 1))
    let maps : Maps ℕ := ⟨∅, fun _ => some ⟨⟨128, nexthop⟩, nexthop⟩, Metrics.zero⟩
    let skb := udpTo (some 7) (.new 203 0 113 9)
    let result := erezEncap { EncapEnv.smooth with linear := 57 } maps skb
    result.act = .shot ∧ result.frame = adjustRoom skb.data := by
  decide +kernel

end Erez.Ebpf
