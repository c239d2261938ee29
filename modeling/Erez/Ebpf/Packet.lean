import Erez.Daemon.Abi
import Erez.Ebpf.Metrics
import Erez.Lib.ByteBuffer

/-! # Packets

The tc program wraps a routed packet into IPv6 and GRE towards its nexthop; the
XDP program unwraps it. Both work on raw offsets into the frame, and so does the
model. What the kernel decides is an input: whether a helper fails although it
could succeed, and how much of an enlarged packet is in its linear part.
-/

namespace Erez.Ebpf

open Erez.Daemon Erez.Lib ByteBuffer

abbrev Frame := List UInt8

def ethP_IP : UInt16 := 0x0800

def ethP_IPV6 : UInt16 := 0x86DD

def ipprotoIcmp : UInt8 := 1

def ipprotoTcp : UInt8 := 6

def ipprotoUdp : UInt8 := 17

def ipprotoGre : UInt8 := 47

def ethHdrLen : ℕ := 14

def ipv6HdrLen : ℕ := 40

/-- IPv6 and GRE headers together. -/
def encapLen : ℕ := 44

/-- Two bytes in network order. -/
def be16 (x : UInt16) : List UInt8 :=
  [(x >>> 8).toUInt8, x.toUInt8]

def ofBe16 (bytes : Vector UInt8 2) : UInt16 :=
  (bytes[0].toNat * 256 + bytes[1].toNat).toUInt16

/-- A packet on its way out of a socket, if it has one. The EtherType the kernel
    keeps beside the packet is given in host order. -/
structure Skb (Sock : Type*) where
  data : Frame
  protocol : UInt16
  sk : Option Sock

inductive TcAct where
  | ok
  | shot
  deriving DecidableEq

inductive XdpAct where
  | aborted
  | drop
  | pass
  | redirect
  deriving DecidableEq

/-- How the helpers that one run of the tc program calls turn out. -/
structure EncapEnv where
  /-- Whether the per-CPU counters are found. -/
  metricsFound : Bool
  loadL4Proto : Bool
  loadDest : Bool
  loadSaddr : Bool
  random : UInt32
  /-- Whether socket storage can be allocated. -/
  storageCreate : Bool
  adjustRoom : Bool
  /-- Bytes between `data` and `data_end` after `bpf_skb_adjust_room`. -/
  linear : ℕ

/-- `bpf_skb_load_bytes`: copies bytes that are there, or fails. -/
def skbLoadBytes (works : Bool) (data : Frame) (offset len : ℕ) : Option (Vector UInt8 len) :=
  if works then load data offset len else none

structure EncapPacket where
  l3Proto : UInt16
  l4Proto : UInt8
  nlri : CNlri
  deriving DecidableEq

def validEncapL3Proto (proto : UInt16) : Bool :=
  proto = ethP_IP || proto = ethP_IPV6

def validEncapL4Proto (proto : UInt8) : Bool :=
  proto = ipprotoTcp || proto = ipprotoUdp || proto = ipprotoIcmp

def validDecapL3Proto (proto : UInt16) : Bool :=
  proto = ethP_IPV6

def validDecapL4Proto (proto : UInt8) : Bool :=
  proto = ipprotoGre

section Encap

variable {Sock : Type*}

def encapPktLoadL4Proto (env : EncapEnv) (data : Frame) (l3Proto : UInt16) : Option UInt8 :=
  if l3Proto = ethP_IP then (skbLoadBytes env.loadL4Proto data (ethHdrLen + 9) 1).map (·[0])
  else if l3Proto = ethP_IPV6 then
    (skbLoadBytes env.loadL4Proto data (ethHdrLen + 6) 1).map (·[0])
  else none

/-- An address loaded from the packet: IPv4 addresses go into the last four bytes
    of a zeroed `in6_addr`, with `0xffff` in front. -/
def loadAddr (works : Bool) (data : Frame) (l3Proto : UInt16) (offset4 offset6 : ℕ) :
    Option CIpv6Addr :=
  if l3Proto = ethP_IP then
    (skbLoadBytes works data (ethHdrLen + offset4) 4).map fun addr =>
      ⟨Vector.replicate 10 (0 : UInt8) ++ #v[(0xFF : UInt8), 0xFF] ++ addr⟩
  else if l3Proto = ethP_IPV6 then
    (skbLoadBytes works data (ethHdrLen + offset6) 16).map fun addr => ⟨addr⟩
  else none

def encapPktLoadDestNlri (env : EncapEnv) (data : Frame) (l3Proto : UInt16) : Option CNlri :=
  (loadAddr env.loadDest data l3Proto 16 24).map fun addr => ⟨128, addr⟩

def encapPktLoadSaddr (env : EncapEnv) (data : Frame) (l3Proto : UInt16) : Option CIpv6Addr :=
  loadAddr env.loadSaddr data l3Proto 12 8

/-- `ok` is `CONTINUE_PROCESSING`; an error is the action returned right away. -/
def encapPktParse (env : EncapEnv) (skb : Skb Sock) (metrics : Metrics) :
    Except TcAct EncapPacket × Metrics :=
  let l3Proto := skb.protocol
  if ¬ validEncapL3Proto l3Proto then
    (.error .ok, metrics.bump .encapSkippedPacketsTotalUnsupportedL3Proto)
  else
    match encapPktLoadL4Proto env skb.data l3Proto with
    | none => (.error .ok, metrics.bump .encapParseErrorsTotalL4ProtoLoad)
    | some l4Proto =>
        if ¬ validEncapL4Proto l4Proto then
          (.error .ok, metrics.bump .encapSkippedPacketsTotalUnsupportedL4Proto)
        else
          match encapPktLoadDestNlri env skb.data l3Proto with
          | none => (.error .ok, metrics.bump .encapParseErrorsTotalDestNlriLoad)
          | some nlri => (.ok ⟨l3Proto, l4Proto, nlri⟩, metrics)

def encapParseExits : List Counter :=
  [.encapSkippedPacketsTotalUnsupportedL3Proto, .encapParseErrorsTotalL4ProtoLoad,
    .encapSkippedPacketsTotalUnsupportedL4Proto, .encapParseErrorsTotalDestNlriLoad]

theorem encapPktParse_cases (env : EncapEnv) (skb : Skb Sock) (metrics : Metrics) :
    (∃ exit ∈ encapParseExits,
      encapPktParse env skb metrics = (.error .ok, metrics.bump exit)) ∨
    ∃ pkt, encapPktParse env skb metrics = (.ok pkt, metrics) := by
  unfold encapPktParse
  simp only
  split
  · exact .inl ⟨_, by decide, rfl⟩
  · split
    · exact .inl ⟨_, by decide, rfl⟩
    · split
      · exact .inl ⟨_, by decide, rfl⟩
      · split
        · exact .inl ⟨_, by decide, rfl⟩
        · exact .inr ⟨_, rfl⟩

/-- `bpf_skb_adjust_room` at the MAC layer: room right after the Ethernet header. -/
def adjustRoom (data : Frame) : Frame :=
  data.take ethHdrLen ++ (List.replicate encapLen 0 ++ data.drop ethHdrLen)

/-- Fill in the outer headers, in the order of the assignments. -/
def writeHeaders (data : Frame) (saddr nexthop : CIpv6Addr) (l3Proto : UInt16) : Frame :=
  let ip6 := ethHdrLen
  let gre := ethHdrLen + ipv6HdrLen
  let payloadLen := (data.length - ethHdrLen - ipv6HdrLen).toUInt16
  let data := patch data 12 (be16 ethP_IPV6)
  -- The version is the upper half of the first byte.
  let data := patch data ip6 ((slice data ip6 1).map fun b => 0x60 ||| (b &&& 0x0F))
  let data := patch data (ip6 + 7) [255]
  let data := patch data (ip6 + 6) [ipprotoGre]
  let data := patch data (ip6 + 8) saddr.octets.toList
  let data := patch data (ip6 + 24) nexthop.octets.toList
  let data := patch data (ip6 + 4) (be16 payloadLen)
  let data := patch data gre [0, 0]
  patch data (gre + 2) (be16 l3Proto)

/-- The frame as it stands on return; an error where the C code returns a negative value. -/
def encapPktEncapsulateIp6Gre (env : EncapEnv) (data : Frame) (pkt : EncapPacket)
    (nexthop : CIpv6Addr) : Except Frame Frame :=
  match encapPktLoadSaddr env data pkt.l3Proto with
  | none => .error data
  | some saddr =>
      if ¬ env.adjustRoom then .error data
      else
        let data := adjustRoom data
        -- Here the packet is resized already.
        if ethHdrLen + encapLen > min env.linear data.length then .error data
        else .ok (writeHeaders data saddr nexthop pkt.l3Proto)

end Encap

/-! ## Decapsulation -/

structure DecapPacket where
  innerL3Proto : UInt16
  nexthop : CIpv6Addr
  deriving DecidableEq

def decapPktParse (data : Frame) (metrics : Metrics) : Except XdpAct DecapPacket × Metrics :=
  match load data 12 2, load data (ethHdrLen + 6) 1, load data (ethHdrLen + ipv6HdrLen + 2) 2,
    load data (ethHdrLen + 24) 16 with
  | some etherType, some nexthdr, some greProtocol, some daddr =>
      if ¬ validDecapL3Proto (ofBe16 etherType) then
        (.error .pass, metrics.bump .decapSkippedPacketsTotalUnsupportedOuterL3Proto)
      else if ¬ validDecapL4Proto nexthdr[0] then
        (.error .pass, metrics.bump .decapSkippedPacketsTotalUnsupportedOuterL4Proto)
      else if ¬ validEncapL3Proto (ofBe16 greProtocol) then
        (.error .pass, metrics.bump .decapSkippedPacketsTotalUnsupportedInnerL3Proto)
      else (.ok ⟨ofBe16 greProtocol, ⟨daddr⟩⟩, metrics)
  -- The frame is shorter than the three headers.
  | _, _, _, _ => (.error .pass, metrics.bump .decapParseErrorsTotalShortPacket)

/-- Move the Ethernet header in front of the inner packet and drop what is before it.
    An error has the frame as it then stands. -/
def decapPktDecapsulateIp6Gre (adjustHead : Bool) (data : Frame) (pkt : DecapPacket) :
    Except Frame Frame :=
  if ethHdrLen + encapLen > data.length then .error data
  else
    let data := patch data 12 (be16 pkt.innerL3Proto)
    let data := patch data encapLen (slice data 0 ethHdrLen)
    if adjustHead then .ok (data.drop encapLen) else .error data

/-! ## A packet to try the programs on -/

/-- An IPv4 UDP packet, cut after its destination address. -/
def udpTo (sk : Option ℕ) (dest : Ipv4Addr) : Skb ℕ where
  data := [2, 0, 0, 0, 0, 1, 2, 0, 0, 0, 0, 2, 8, 0, 0x45, 0, 0, 20, 0, 0, 0, 0, 64, 17, 0, 0,
    198, 51, 100, 7] ++ dest.octets.toList
  protocol := ethP_IP
  sk := sk

/-- No helper fails. -/
def EncapEnv.smooth : EncapEnv :=
  ⟨true, true, true, true, 0, true, true, 78⟩

end Erez.Ebpf
