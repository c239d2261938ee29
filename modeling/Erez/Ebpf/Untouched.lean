import Erez.Ebpf.Decap
import Erez.Ebpf.RoundTrip

/-! # What the kernel gets of a frame that is not forwarded

The program writes the unwrapped frame in stages: the time to live and the checksum,
then the Ethernet addresses, and only then the check that the route leads out of
another interface. Every exit before the first write hands over the unwrapped frame
as it is; every one behind it hands over a frame that was made for another link.
-/

namespace Erez.Ebpf

open Erez.Daemon Erez.Lib ByteBuffer

/-- The inner packet behind an Ethernet header with the received addresses. -/
def unwrapped (data : Frame) (pkt : DecapPacket) : Frame :=
  data.take 12 ++ (be16 pkt.innerL3Proto ++ data.drop (ethHdrLen + encapLen))

/-- A packet of either family with a whole header that may make one more hop. -/
def Forwardable (innerL3Proto : UInt16) (inner : List UInt8) : Prop :=
  (innerL3Proto = ethP_IP ∧ ipv4HdrLen ≤ inner.length ∧ 1 < inner.getD 8 0) ∨
    (innerL3Proto = ethP_IPV6 ∧ ipv6HdrLen ≤ inner.length ∧ 1 < inner.getD 7 0)

instance (innerL3Proto : UInt16) (inner : List UInt8) : Decidable (Forwardable innerL3Proto inner) :=
  inferInstanceAs (Decidable (_ ∨ _))

/-! ## The first stage -/

/-- A byte that was decremented in place is not what it was. -/
theorem getElem?_decremented {data : Frame} {offset : ℕ} (inside : offset < data.length) :
    (patch data offset [data.getD offset 0 - 1])[offset]? ≠ data[offset]? := by
  have written : (patch data offset [data.getD offset 0 - 1])[offset + 0]? =
      [data.getD offset 0 - 1][0]? :=
    getElem?_patch_inside inside.le Nat.zero_lt_one
  rw [Nat.add_zero, List.getElem?_cons_zero] at written
  rw [written, List.getD_eq_getElem?_getD, List.getElem?_eq_getElem inside, Option.getD_some, ne_eq,
    Option.some.injEq, ← UInt8.toNat_inj, UInt8.toNat_sub]
  have bound := data[offset].toNat_lt
  have one : (1 : UInt8).toNat = 1 := rfl
  omega

/-- The first stage passes exactly the packets that may make one more hop. -/
theorem decrement_isSome {eth : List UInt8} (ethLength : eth.length = ethHdrLen)
    (inner : List UInt8) (innerL3Proto : UInt16) :
    (decapPktDecrementInnerTtl (eth ++ inner) innerL3Proto).isSome ↔
      Forwardable innerL3Proto inner := by
  have field : ∀ offset, (eth ++ inner).getD (ethHdrLen + offset) 0 = inner.getD offset 0 := by
    intro offset
    rw [← ethLength, List.getD_append_right _ _ _ _ (Nat.le_add_right _ _), Nat.add_sub_cancel_left]
  have short : ∀ len, ethHdrLen + len > (eth ++ inner).length ↔ ¬ len ≤ inner.length := by
    intro len
    rw [List.length_append, ethLength]
    omega
  have other : ethP_IPV6 ≠ ethP_IP := by decide
  simp only [decapPktDecrementInnerTtl, Forwardable, field, short]
  by_cases ipv4 : innerL3Proto = ethP_IP
  · subst ipv4
    by_cases whole : ipv4HdrLen ≤ inner.length
    · simp [whole, other.symm]
    · simp [whole, other.symm]
  · by_cases ipv6 : innerL3Proto = ethP_IPV6
    · subst ipv6
      by_cases whole : ipv6HdrLen ≤ inner.length
      · simp [whole, other]
      · simp [whole, other]
    · simp [ipv4, ipv6]

/-- Behind the Ethernet header, the frame that the first stage leaves differs. -/
theorem decrement_changes {data out : Frame} {innerL3Proto : UInt16}
    (h : decapPktDecrementInnerTtl data innerL3Proto = some out) :
    ∃ i, ethHdrLen ≤ i ∧ out[i]? ≠ data[i]? := by
  simp only [decapPktDecrementInnerTtl] at h
  split at h
  · split at h
    · cases h
    · rename_i whole
      split at h
      · cases h
      · cases h
        simp only [ipv4HdrLen] at whole
        have inside : ethHdrLen + 8 < data.length := by omega
        have length : ∀ byte, (patch data (ethHdrLen + 8) [byte]).length = data.length :=
          fun byte => length_patch (by simpa using inside)
        refine ⟨ethHdrLen + 8, Nat.le_add_right _ _, ?_⟩
        rw [getElem?_patch_outside (by rw [length]; simp [fixChecksum]; omega) (.inl (by omega))]
        exact getElem?_decremented inside
  · split at h
    · split at h
      · cases h
      · rename_i whole
        split at h
        · cases h
        · cases h
          simp only [ipv6HdrLen] at whole
          exact ⟨ethHdrLen + 7, Nat.le_add_right _ _, getElem?_decremented (by omega)⟩
    · cases h

/-- The last stage only writes the addresses. -/
theorem rewrite_changes {data out : Frame} (length : out.length = data.length)
    (whole : ethHdrLen ≤ data.length) (dmac smac : Vector UInt8 6)
    (changed : ∃ i, ethHdrLen ≤ i ∧ out[i]? ≠ data[i]?) :
    patch (patch out 0 dmac.toList) 6 smac.toList ≠ data := by
  simp only [ethHdrLen] at whole changed
  obtain ⟨i, behind, differs⟩ := changed
  have first : (patch out 0 dmac.toList).length = out.length := length_patch (by simp; omega)
  intro same
  apply differs
  rw [← same, getElem?_patch_outside (by simp [first]; omega) (.inr (by simp; omega)),
    getElem?_patch_outside (by simp; omega) (.inr (by simp; omega))]

/-! ## Every exit -/

/-- What is promised of a frame that was unwrapped: the kernel gets it as it is, and
    only a frame that is redirected has been written to. -/
structure LeavesUntouched (env : DecapEnv) (ctx : XdpMd) (metrics : Metrics) (pkt : DecapPacket) :
    Prop where
  passed : (erezDecap env ctx metrics).act = .pass →
    (erezDecap env ctx metrics).frame = unwrapped ctx.data pkt
  rewritten : (erezDecap env ctx metrics).frame ≠ unwrapped ctx.data pkt →
    (erezDecap env ctx metrics).act = .redirect

/-- What the parser has checked when it accepts a frame. -/
theorem decapPktParse_ok {data : Frame} {metrics : Metrics} {pkt : DecapPacket}
    (parsed : (decapPktParse data metrics).1 = .ok pkt) :
    ethHdrLen + encapLen ≤ data.length ∧
      ∀ other, decapPktParse data other = (.ok pkt, other) := by
  unfold decapPktParse at parsed
  split at parsed
  · rename_i type next protocol daddr loadedType loadedNext loadedProtocol loadedDest
    have bound := (load_eq_some.mp loadedProtocol).1
    simp only [ethHdrLen, ipv6HdrLen] at bound
    refine ⟨by simp only [ethHdrLen, encapLen]; omega, fun other => ?_⟩
    simp only [decapPktParse, loadedType, loadedNext, loadedProtocol, loadedDest]
    split_ifs at parsed ⊢
    cases parsed
    rfl
  · cases parsed

section

variable {env : DecapEnv} {ctx : XdpMd} {metrics : Metrics} {pkt : DecapPacket}

/-- The frame goes through the parser and is unwrapped; the rest is up to the route. -/
theorem erezDecap_unwrapped (counted : env.metricsFound = true) (adjusted : env.adjustHead = true)
    (parsed : (decapPktParse ctx.data metrics).1 = .ok pkt) :
    erezDecap env ctx metrics = decapPktForwardToNexthop env
      { ctx with data := unwrapped ctx.data pkt } pkt
      ((metrics.bump .decapProcessedPacketsTotal).bump .decapDecapsulatedPacketsTotal) := by
  obtain ⟨whole, parses⟩ := decapPktParse_ok parsed
  rw [erezDecap, if_neg (by simp [counted])]
  simp only [parses, adjusted, decapsulate_eq whole]
  rfl

/-- What the first stage does with the unwrapped frame. -/
theorem decrement_unwrapped (parsed : (decapPktParse ctx.data metrics).1 = .ok pkt) :
    (decapPktDecrementInnerTtl (unwrapped ctx.data pkt) pkt.innerL3Proto).isSome ↔
      Forwardable pkt.innerL3Proto (ctx.data.drop (ethHdrLen + encapLen)) := by
  have whole := (decapPktParse_ok parsed).1
  have layout : unwrapped ctx.data pkt =
      (ctx.data.take 12 ++ be16 pkt.innerL3Proto) ++ ctx.data.drop (ethHdrLen + encapLen) :=
    (List.append_assoc _ _ _).symm
  have ethLength : (ctx.data.take 12 ++ be16 pkt.innerL3Proto).length = ethHdrLen := by
    simp only [ethHdrLen, encapLen] at whole ⊢
    simp
    omega
  rw [layout]
  exact decrement_isSome ethLength _ _

/-- Without a route, or with no further hop to make, nothing is written. -/
theorem erezDecap_unwritten (counted : env.metricsFound = true) (adjusted : env.adjustHead = true)
    (parsed : (decapPktParse ctx.data metrics).1 = .ok pkt)
    (stops : ∀ route, env.fibLookup ⟨ctx.ingressIfindex, .ofCIpv6Addr pkt.nexthop⟩ = some route →
      ¬ Forwardable pkt.innerL3Proto (ctx.data.drop (ethHdrLen + encapLen))) :
    (erezDecap env ctx metrics).frame = unwrapped ctx.data pkt := by
  rw [erezDecap_unwrapped counted adjusted parsed]
  simp only [decapPktForwardToNexthop]
  cases looked : env.fibLookup ⟨ctx.ingressIfindex, .ofCIpv6Addr pkt.nexthop⟩ with
  | none => rfl
  | some route =>
      have fails := mt (decrement_unwrapped parsed).mp (stops route looked)
      rw [Option.not_isSome_iff_eq_none] at fails
      simp only [fails]

/-- With a route and a further hop to make, the frame is written and then sent on or back. -/
theorem erezDecap_written (counted : env.metricsFound = true) (adjusted : env.adjustHead = true)
    (parsed : (decapPktParse ctx.data metrics).1 = .ok pkt) {route : FibRoute}
    (looked : env.fibLookup ⟨ctx.ingressIfindex, .ofCIpv6Addr pkt.nexthop⟩ = some route)
    (alive : Forwardable pkt.innerL3Proto (ctx.data.drop (ethHdrLen + encapLen))) :
    (erezDecap env ctx metrics).frame ≠ unwrapped ctx.data pkt ∧
      (erezDecap env ctx metrics).act =
        if route.ifindex = ctx.ingressIfindex then .pass else env.redirect route.ifindex := by
  obtain ⟨data, aged⟩ := Option.isSome_iff_exists.mp ((decrement_unwrapped parsed).mpr alive)
  obtain ⟨length, behind⟩ := decrementInnerTtl_length aged
  have changed := rewrite_changes length behind route.dmac route.smac (decrement_changes aged)
  rw [erezDecap_unwrapped counted adjusted parsed]
  simp only [decapPktForwardToNexthop, looked, aged, length, gt_iff_lt, not_lt.mpr behind, if_false]
  by_cases back : route.ifindex = ctx.ingressIfindex
  · rw [if_pos back, if_pos back]
    exact ⟨changed, rfl⟩
  · rw [if_neg back, if_neg back]
    cases env.redirect route.ifindex with
    | aborted | drop | pass | redirect => exact ⟨changed, rfl⟩

/-- An unwrapped frame is left alone exactly when its way ends before the first write
    or all the way at another interface. -/
theorem leavesUntouched_iff (env : DecapEnv) (ctx : XdpMd) (metrics : Metrics) (pkt : DecapPacket)
    (counted : env.metricsFound = true) (adjusted : env.adjustHead = true)
    (parsed : (decapPktParse ctx.data metrics).1 = .ok pkt) :
    LeavesUntouched env ctx metrics pkt ↔
      ∀ route, env.fibLookup ⟨ctx.ingressIfindex, .ofCIpv6Addr pkt.nexthop⟩ = some route →
        Forwardable pkt.innerL3Proto (ctx.data.drop (ethHdrLen + encapLen)) →
        route.ifindex ≠ ctx.ingressIfindex ∧ env.redirect route.ifindex = .redirect := by
  constructor
  · intro leaves route looked alive
    obtain ⟨differs, act⟩ := erezDecap_written counted adjusted parsed looked alive
    by_cases back : route.ifindex = ctx.ingressIfindex
    · rw [if_pos back] at act
      exact absurd (leaves.passed act) differs
    · rw [if_neg back] at act
      exact ⟨back, act.symm.trans (leaves.rewritten differs)⟩
  · intro condition
    by_cases stops : ∀ route,
        env.fibLookup ⟨ctx.ingressIfindex, .ofCIpv6Addr pkt.nexthop⟩ = some route →
          ¬ Forwardable pkt.innerL3Proto (ctx.data.drop (ethHdrLen + encapLen))
    · have same := erezDecap_unwritten counted adjusted parsed stops
      exact ⟨fun _ => same, fun differs => absurd same differs⟩
    · push Not at stops
      obtain ⟨route, looked, alive⟩ := stops
      obtain ⟨elsewhere, redirects⟩ := condition route looked alive
      obtain ⟨differs, act⟩ := erezDecap_written counted adjusted parsed looked alive
      rw [if_neg elsewhere, redirects] at act
      refine ⟨fun passed => ?_, fun _ => act⟩
      rw [act] at passed
      cases passed

end

section Returned

private def tunnelled : DecapPacket := ⟨ethP_IP, .ofIpAddr (.v4 (.new 192 0 2 9))⟩

/-- A datagram with 64 hops to go, as it comes in on interface 2. -/
private def arrived : XdpMd where
  data := (udpTo none (.new 203 0 113 9)).data.take 12 ++
    (outerHeaders 24 (.ofIpAddr (.v4 (.new 198 51 100 7))) tunnelled.nexthop ethP_IP ++
      (udpTo none (.new 203 0 113 9)).data.drop 14)
  ingressIfindex := 2

/-- A route to the given interface, and a redirect that works. -/
private def routing (ifindex : UInt32) : DecapEnv :=
  ⟨true, true, fun _ => some ⟨ifindex, #v[2, 0, 0, 0, 0, 3], #v[2, 0, 0, 0, 0, 4]⟩, fun _ => .redirect⟩

theorem leavesUntouched_forwarded :
    LeavesUntouched (routing 3) arrived Metrics.zero tunnelled := by
  refine (leavesUntouched_iff (routing 3) arrived Metrics.zero tunnelled rfl rfl
    (by decide +kernel)).mpr ?_
  intro route found _
  cases found
  exact ⟨by decide, rfl⟩

/-- Sent back to where it came from, the datagram is passed on with 63 hops to go and
    the addresses of the other link. -/
theorem returned_datagram_written :
    (decapPktParse arrived.data Metrics.zero).1 = .ok tunnelled ∧
      (erezDecap (routing 2) arrived Metrics.zero).act = .pass ∧
      (erezDecap (routing 2) arrived Metrics.zero).frame ≠ unwrapped arrived.data tunnelled ∧
      ¬ LeavesUntouched (routing 2) arrived Metrics.zero tunnelled := by
  have passed : (erezDecap (routing 2) arrived Metrics.zero).act = .pass := by decide +kernel
  have differs : (erezDecap (routing 2) arrived Metrics.zero).frame ≠
      unwrapped arrived.data tunnelled := by decide +kernel
  exact ⟨by decide +kernel, passed, differs, fun leaves => differs (leaves.passed passed)⟩

end Returned

end Erez.Ebpf
