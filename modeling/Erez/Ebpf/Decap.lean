import Erez.Ebpf.Packet

/-! # The decapsulation program

`erez_decap` unwraps a frame and hands it to the interface that the kernel's own
FIB names for the nexthop in the outer header. From the moment the frame is
unwrapped, whatever goes wrong leaves it to the kernel. The checksum update is that
of a little-endian host.
-/

namespace Erez.Ebpf

open Erez.Daemon Erez.Lib ByteBuffer

def ipv4HdrLen : ℕ := 20

structure XdpMd where
  data : Frame
  ingressIfindex : UInt32

/-- What `bpf_fib_lookup` is asked: the family goes with the address. -/
structure FibParams where
  ifindex : UInt32
  dst : IpAddr
  deriving DecidableEq

/-- What a successful lookup fills in. -/
structure FibRoute where
  ifindex : UInt32
  dmac : Vector UInt8 6
  smac : Vector UInt8 6
  deriving DecidableEq

/-- How the helpers that one run of the XDP program calls turn out. -/
structure DecapEnv where
  metricsFound : Bool
  adjustHead : Bool
  fibLookup : FibParams → Option FibRoute
  redirect : (ifindex : UInt32) → XdpAct

/-- What a run of the program leaves behind. -/
structure DecapResult where
  act : XdpAct
  frame : Frame
  metrics : Metrics

/-- Add to the checksum what was taken off the time to live, with the carry. -/
def fixChecksum (low high : UInt8) : List UInt8 :=
  let sum : UInt32 := low.toUInt32 + 256 * high.toUInt32 + 1
  let check := (sum + if sum ≥ 0xFFFF then 1 else 0).toUInt16
  [check.toUInt8, (check >>> 8).toUInt8]

/-- The new frame, or `none` where the C code returns a negative value. -/
def decapPktDecrementInnerTtl (data : Frame) (innerL3Proto : UInt16) : Option Frame :=
  let ip := ethHdrLen
  if innerL3Proto = ethP_IP then
    if ethHdrLen + ipv4HdrLen > data.length then none
    else
      let ttl := data.getD (ip + 8) 0
      if ttl ≤ 1 then none
      else
        let data := patch data (ip + 8) [ttl - 1]
        some (patch data (ip + 10) (fixChecksum (data.getD (ip + 10) 0) (data.getD (ip + 11) 0)))
  else if innerL3Proto = ethP_IPV6 then
    if ethHdrLen + ipv6HdrLen > data.length then none
    else
      let hopLimit := data.getD (ip + 7) 0
      if hopLimit ≤ 1 then none else some (patch data (ip + 7) [hopLimit - 1])
  else none

def decapPktForwardToNexthop (env : DecapEnv) (ctx : XdpMd) (pkt : DecapPacket)
    (metrics : Metrics) : DecapResult :=
  match env.fibLookup ⟨ctx.ingressIfindex, .ofCIpv6Addr pkt.nexthop⟩ with
  | none => ⟨.pass, ctx.data, metrics.bump .decapErrorsTotalFibLookupFailed⟩
  | some route =>
      match decapPktDecrementInnerTtl ctx.data pkt.innerL3Proto with
      | none => ⟨.pass, ctx.data, metrics.bump .decapErrorsTotalDecrementInnerTtlFailed⟩
      | some data =>
          if ethHdrLen > data.length then ⟨.pass, data, metrics⟩
          else
            let data := patch (patch data 0 route.dmac.toList) 6 route.smac.toList
            if route.ifindex = ctx.ingressIfindex then
              ⟨.pass, data, metrics.bump .decapErrorsTotalSameIfindex⟩
            else
              match env.redirect route.ifindex with
              | .aborted => ⟨.aborted, data, metrics.bump .decapErrorsTotalRedirectFailed⟩
              | act => ⟨act, data, metrics.bump .decapRedirectedPacketsTotal⟩

def erezDecap (env : DecapEnv) (ctx : XdpMd) (metrics : Metrics) : DecapResult :=
  if ¬ env.metricsFound then ⟨.aborted, ctx.data, metrics⟩
  else
    let metrics := metrics.bump .decapProcessedPacketsTotal
    match decapPktParse ctx.data metrics with
    | (.error act, metrics) => ⟨act, ctx.data, metrics⟩
    | (.ok pkt, metrics) =>
        match decapPktDecapsulateIp6Gre env.adjustHead ctx.data pkt with
        | .error data => ⟨.drop, data, metrics.bump .decapErrorsTotalDecapFailed⟩
        | .ok data =>
            let metrics := metrics.bump .decapDecapsulatedPacketsTotal
            decapPktForwardToNexthop env { ctx with data } pkt metrics

/-- Decrementing keeps the length, and only happens behind a whole Ethernet header. -/
theorem decrementInnerTtl_length {data out : Frame} {innerL3Proto : UInt16}
    (h : decapPktDecrementInnerTtl data innerL3Proto = some out) :
    out.length = data.length ∧ ethHdrLen ≤ data.length := by
  simp only [decapPktDecrementInnerTtl] at h
  split at h
  · split at h
    · cases h
    · rename_i whole
      simp only [ethHdrLen, ipv4HdrLen] at whole
      split at h
      · cases h
      · cases h
        have ttl : ∀ byte, (patch data (ethHdrLen + 8) [byte]).length = data.length := fun byte =>
          length_patch (by simp [ethHdrLen]; omega)
        rw [length_patch, ttl]
        · exact ⟨rfl, by simp [ethHdrLen]; omega⟩
        · rw [ttl]
          simp only [fixChecksum, ethHdrLen, List.length_cons, List.length_nil]
          omega
  · split at h
    · split at h
      · cases h
      · rename_i whole
        simp only [ethHdrLen, ipv6HdrLen] at whole
        split at h
        · cases h
        · cases h
          rw [length_patch]
          · exact ⟨rfl, by simp [ethHdrLen]; omega⟩
          · simp [ethHdrLen]
            omega
    · cases h

end Erez.Ebpf
