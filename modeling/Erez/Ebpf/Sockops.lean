import Erez.Ebpf.Encap

/-! # The socket callbacks

`erez_sockops` asks for RTT callbacks when a connection is established, and reports
each of them to userspace together with what the socket's sticky nexthop was chosen
from.
-/

namespace Erez.Ebpf

open Erez.Daemon

def afInet : UInt32 := 2

def afInet6 : UInt32 := 10

def rttCbFlag : UInt32 := 8

/-- The operations that the program tells apart. -/
inductive SockOp where
  | activeEstablishedCb
  | passiveEstablishedCb
  | rttCb
  | other
  deriving DecidableEq

/-- The callback context. Addresses are in network order. -/
structure SockOps (Sock : Type*) where
  op : SockOp
  family : UInt32
  remoteIp4 : Vector UInt8 4
  remoteIp6 : Vector UInt8 16
  cbFlags : UInt32
  sk : Option Sock
  srttUs : UInt32
  rttMin : UInt32

/-- How the helpers that one run of the program calls turn out. -/
structure SockopsEnv where
  metricsFound : Bool
  cbFlagsSet : (flags : UInt32) → Bool
  ringbufReserve : Bool
  ktimeGetNs : UInt64

variable {Sock : Type*}

def sockopsRemoteNlri (ops : SockOps Sock) : Option CNlri :=
  if ops.family = afInet then
    some ⟨128, ⟨mappedOctets ++ ops.remoteIp4⟩⟩
  else if ops.family = afInet6 then some ⟨128, ⟨ops.remoteIp6⟩⟩
  else none

/-- The event that is submitted, if any. -/
def emitTcpRttEvent (env : SockopsEnv) (maps : Maps Sock) (ops : SockOps Sock) :
    Option CTcpRttEvent × Maps Sock :=
  let maps := maps.bump .sockopsRttCallbacksTotal
  match sockopsRemoteNlri ops with
  | none => (none, maps.bump .sockopsRttSkippedTotalUnsupportedFamily)
  | some _ =>
      match ops.sk with
      | none => (none, maps.bump .sockopsRttSkippedTotalStickyNexthopMiss)
      | some sock =>
          match maps.sticky sock with
          | none => (none, maps.bump .sockopsRttSkippedTotalStickyNexthopMiss)
          | some sticky =>
              if ¬ env.ringbufReserve then
                (none, maps.bump .sockopsRttEventDropsTotalRingbufFull)
              else
                let event : CTcpRttEvent :=
                  { matchedNlri := sticky.matchedNlri
                    nexthop := sticky.nexthop
                    tsNs := env.ktimeGetNs
                    srttUs := ops.srttUs
                    rttMin := ops.rttMin }
                (some event, maps.bump .sockopsRttEventsTotal)

def erezSockops (env : SockopsEnv) (maps : Maps Sock) (ops : SockOps Sock) :
    Option CTcpRttEvent × Maps Sock :=
  if ¬ env.metricsFound then (none, maps)
  else
    match ops.op with
    | .activeEstablishedCb | .passiveEstablishedCb =>
        if env.cbFlagsSet (ops.cbFlags ||| rttCbFlag) then
          (none, maps.bump .sockopsRttCallbackRegistrationsTotalSuccess)
        else (none, maps.bump .sockopsRttCallbackRegistrationsTotalFailed)
    | .rttCb => emitTcpRttEvent env maps ops
    | .other => (none, maps)

end Erez.Ebpf
