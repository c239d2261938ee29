import Erez.Ebpf.Packet

/-! # Decapsulation undoes encapsulation

Both programs are described by the layout of the frame they leave. The encapsulated
frame is the Ethernet addresses, the outer headers and the inner packet; the
decapsulator's overlapping move only overwrites bytes that are then cut off.
-/

namespace Erez.Ebpf

open Erez.Daemon Erez.Lib ByteBuffer

@[simp]
theorem length_be16 (x : UInt16) : (be16 x).length = 2 := by
  simp [be16]

theorem ofBe16_of_toList {x : UInt16} {bytes : Vector UInt8 2} (h : bytes.toList = be16 x) :
    ofBe16 bytes = x := by
  have high : bytes[0] = (x >>> 8).toUInt8 := by
    have := congrArg (·[0]?) h
    simpa [be16] using this
  have low : bytes[1] = x.toUInt8 := by
    have := congrArg (·[1]?) h
    simpa [be16] using this
  rw [ofBe16, high, low, ← UInt16.toNat_inj]
  have bound := x.toNat_lt
  simp [Nat.shiftRight_eq_div_pow]
  omega

/-- An Ethernet frame by its parts. -/
structure Parts where
  macs : List UInt8
  etherType : List UInt8
  inner : List UInt8
  macs_length : macs.length = 12
  etherType_length : etherType.length = 2

def Parts.frame (parts : Parts) : Frame :=
  parts.macs ++ (parts.etherType ++ parts.inner)

theorem exists_parts {data : Frame} (h : ethHdrLen ≤ data.length) :
    ∃ parts : Parts, parts.frame = data := by
  simp only [ethHdrLen] at h
  refine ⟨⟨data.take 12, (data.drop 12).take 2, (data.drop 12).drop 2, ?_, ?_⟩, ?_⟩
  · rw [List.length_take]
    omega
  · rw [List.length_take, List.length_drop]
    omega
  · rw [Parts.frame, List.take_append_drop, List.take_append_drop]

theorem Parts.frame_eq (parts : Parts) :
    parts.frame = (parts.macs ++ parts.etherType) ++ parts.inner :=
  (List.append_assoc _ _ _).symm

theorem Parts.header_length (parts : Parts) :
    (parts.macs ++ parts.etherType).length = ethHdrLen := by
  rw [List.length_append, parts.macs_length, parts.etherType_length, ethHdrLen]

/-- The outer headers that encapsulation puts between the Ethernet addresses and
    the inner packet. -/
def outerHeaders (payloadLen : UInt16) (saddr nexthop : CIpv6Addr) (l3Proto : UInt16) :
    List UInt8 :=
  be16 ethP_IPV6 ++ ([0x60, 0, 0, 0] ++ (be16 payloadLen ++ ([ipprotoGre] ++ ([255] ++
    (saddr.octets.toList ++ (nexthop.octets.toList ++ ([0, 0] ++ be16 l3Proto)))))))

theorem adjustRoom_frame (parts : Parts) :
    adjustRoom parts.frame = parts.macs ++ (parts.etherType ++ (List.replicate encapLen 0 ++
      parts.inner)) := by
  rw [adjustRoom, parts.frame_eq, ← parts.header_length, List.take_left, List.drop_left,
    List.append_assoc]

theorem writeHeaders_adjustRoom (parts : Parts) (saddr nexthop : CIpv6Addr) (l3Proto : UInt16) :
    writeHeaders (adjustRoom parts.frame) saddr nexthop l3Proto =
      parts.macs ++ (outerHeaders (4 + parts.inner.length).toUInt16 saddr nexthop l3Proto ++
        parts.inner) := by
  -- The room, cut at the fields that are written.
  have room : List.replicate encapLen (0 : UInt8) ++ parts.inner =
      [0] ++ ([0, 0, 0] ++ ([0, 0] ++ ([0] ++ ([0] ++ (List.replicate 16 0 ++
        (List.replicate 16 0 ++ ([0, 0] ++ ([0, 0] ++ parts.inner)))))))) := rfl
  have payload : (adjustRoom parts.frame).length - ethHdrLen - ipv6HdrLen =
      4 + parts.inner.length := by
    rw [adjustRoom_frame, List.length_append, List.length_append, List.length_append,
      List.length_replicate, parts.macs_length, parts.etherType_length]
    simp only [ethHdrLen, ipv6HdrLen, encapLen]
    omega
  rw [writeHeaders, payload, adjustRoom_frame, room]
  simp (disch := simp [parts.macs_length, parts.etherType_length]) only [patch_right, patch_here,
    slice_right, slice_here, parts.macs_length, ethHdrLen, ipv6HdrLen,
    length_be16, List.length_cons, List.length_nil, Vector.length_toList,
    List.length_map, Nat.reduceAdd, Nat.reduceSub, outerHeaders, List.append_assoc]
  rfl

/-! ## What the encapsulator has checked -/

section

variable {Sock : Type*}

theorem encapPktParse_ok {env : EncapEnv} {skb : Skb Sock} {metrics : Metrics} {pkt : EncapPacket}
    (h : (encapPktParse env skb metrics).1 = .ok pkt) :
    pkt.l3Proto = skb.protocol ∧ validEncapL3Proto skb.protocol = true ∧
      encapPktLoadDestNlri env skb.data skb.protocol = some pkt.nlri := by
  unfold encapPktParse at h
  by_cases l3 : validEncapL3Proto skb.protocol = true
  · simp only [l3, not_true_eq_false, if_false] at h
    cases l4 : encapPktLoadL4Proto env skb.data skb.protocol with
    | none => simp [l4] at h
    | some l4Proto =>
        simp only [l4] at h
        split at h
        · cases h
        · cases dest : encapPktLoadDestNlri env skb.data skb.protocol with
          | none => simp [dest] at h
          | some nlri =>
              simp only [dest] at h
              cases h
              exact ⟨rfl, l3, rfl⟩
  · simp [l3] at h

theorem loadAddr_length {works : Bool} {data : Frame} {l3Proto : UInt16} {offset4 offset6 : ℕ}
    {addr : CIpv6Addr} (h : loadAddr works data l3Proto offset4 offset6 = some addr) :
    ethHdrLen ≤ data.length := by
  have inside : ∀ {offset len : ℕ} {bytes : Vector UInt8 len},
      skbLoadBytes works data (ethHdrLen + offset) len = some bytes →
        ethHdrLen ≤ data.length := by
    intro offset len bytes loaded
    unfold skbLoadBytes at loaded
    split at loaded
    · have := (load_eq_some.mp loaded).1
      omega
    · cases loaded
  unfold loadAddr at h
  split at h
  · obtain ⟨bytes, loaded, -⟩ := Option.map_eq_some_iff.mp h
    exact inside loaded
  · split at h
    · obtain ⟨bytes, loaded, -⟩ := Option.map_eq_some_iff.mp h
      exact inside loaded
    · cases h

/-- An encapsulated frame is laid out like this, whatever the inner packet is. -/
theorem encapsulate_layout {env : EncapEnv} {data : Frame} {pkt : EncapPacket}
    {nexthop : CIpv6Addr} {out : Frame}
    (h : encapPktEncapsulateIp6Gre env data pkt nexthop = .ok out) :
    ∃ (parts : Parts) (saddr : CIpv6Addr), parts.frame = data ∧
      encapPktLoadSaddr env data pkt.l3Proto = some saddr ∧
      out = parts.macs ++ (outerHeaders (4 + parts.inner.length).toUInt16 saddr nexthop
        pkt.l3Proto ++ parts.inner) := by
  unfold encapPktEncapsulateIp6Gre at h
  cases source : encapPktLoadSaddr env data pkt.l3Proto with
  | none => simp [source] at h
  | some saddr =>
      obtain ⟨parts, rfl⟩ := exists_parts (loadAddr_length source)
      simp only [source] at h
      split at h
      · cases h
      · split at h
        · cases h
        · rw [writeHeaders_adjustRoom] at h
          exact ⟨parts, saddr, rfl, rfl, (Except.ok.inj h).symm⟩

end

/-! ## The decapsulator on that layout -/

theorem decapPktParse_layout (metrics : Metrics) {macs inner : List UInt8}
    (macsLength : macs.length = 12) (payloadLen : UInt16) (saddr nexthop : CIpv6Addr)
    {l3Proto : UInt16} (valid : validEncapL3Proto l3Proto = true) :
    decapPktParse (macs ++ (outerHeaders payloadLen saddr nexthop l3Proto ++ inner)) metrics =
      (.ok ⟨l3Proto, nexthop⟩, metrics) := by
  set data := macs ++ (outerHeaders payloadLen saddr nexthop l3Proto ++ inner) with hdata
  have size : ethHdrLen + encapLen ≤ data.length := by
    simp [hdata, outerHeaders, macsLength, ethHdrLen, encapLen]
    omega
  simp only [ethHdrLen, encapLen] at size
  obtain ⟨etherType, loadedType, isType⟩ := exists_load (12 : ℕ) 2
    (show 12 + 2 ≤ data.length by omega)
  obtain ⟨nexthdr, loadedNext, isNext⟩ := exists_load (ethHdrLen + 6) 1
    (show ethHdrLen + 6 + 1 ≤ data.length by simp only [ethHdrLen]; omega)
  obtain ⟨protocol, loadedProtocol, isProtocol⟩ := exists_load
    (ethHdrLen + ipv6HdrLen + 2) 2
    (show ethHdrLen + ipv6HdrLen + 2 + 2 ≤ data.length by simp only [ethHdrLen, ipv6HdrLen]; omega)
  obtain ⟨daddr, loadedDest, isDest⟩ := exists_load (ethHdrLen + 24) 16
    (show ethHdrLen + 24 + 16 ≤ data.length by simp only [ethHdrLen]; omega)
  simp (disch := simp [macsLength]) only [hdata, outerHeaders, List.append_assoc, slice_right,
    slice_here, macsLength, ethHdrLen, ipv6HdrLen, length_be16, List.length_cons, List.length_nil,
    Vector.length_toList, Nat.reduceAdd, Nat.reduceSub] at isType isNext isProtocol isDest
  have gre : nexthdr[0] = ipprotoGre := by
    have := congrArg (·[0]?) isNext
    simpa using this
  have dest : daddr = nexthop.octets := Vector.toList_inj.mp isDest
  rw [decapPktParse, loadedType, loadedNext, loadedProtocol, loadedDest]
  simp only [ofBe16_of_toList isType, gre, ofBe16_of_toList isProtocol, dest, valid]
  rfl

/-- What the decapsulator leaves of a frame: its addresses and the inner packet. -/
theorem decapsulate_eq {data : Frame} (whole : ethHdrLen + encapLen ≤ data.length)
    (pkt : DecapPacket) :
    decapPktDecapsulateIp6Gre true data pkt =
      .ok (data.take 12 ++ (be16 pkt.innerL3Proto ++ data.drop (ethHdrLen + encapLen))) := by
  obtain ⟨parts, rfl⟩ := exists_parts ((Nat.le_add_right ethHdrLen encapLen).trans whole)
  have restored : patch parts.frame 12 (be16 pkt.innerL3Proto) =
      (parts.macs ++ be16 pkt.innerL3Proto) ++ parts.inner := by
    have sameSize : parts.etherType.length = (be16 pkt.innerL3Proto).length := by
      rw [parts.etherType_length, length_be16]
    rw [Parts.frame, patch_right parts.macs_length.le, parts.macs_length, Nat.sub_self,
      patch_here sameSize, List.append_assoc]
  have header : (parts.macs ++ be16 pkt.innerL3Proto).length = ethHdrLen := by
    simp [parts.macs_length, ethHdrLen]
  have front : slice ((parts.macs ++ be16 pkt.innerL3Proto) ++ parts.inner) 0 ethHdrLen =
      parts.macs ++ be16 pkt.innerL3Proto := slice_here header
  have macs : parts.frame.take 12 = parts.macs := List.take_left' parts.macs_length
  have rest : parts.frame.drop (ethHdrLen + encapLen) = parts.inner.drop encapLen := by
    rw [parts.frame_eq, ← List.drop_drop, List.drop_left' parts.header_length]
  have tail : ((parts.macs ++ be16 pkt.innerL3Proto) ++ parts.inner).drop
      (encapLen + (parts.macs ++ be16 pkt.innerL3Proto).length) = parts.inner.drop encapLen := by
    rw [Nat.add_comm, ← List.drop_drop, List.drop_left]
  have inside : encapLen ≤ ((parts.macs ++ be16 pkt.innerL3Proto) ++ parts.inner).length := by
    rw [parts.frame_eq, List.length_append, parts.header_length] at whole
    rw [List.length_append, header]
    omega
  simp only [decapPktDecapsulateIp6Gre, if_neg (not_lt.mpr whole), restored, front, if_true]
  rw [drop_patch inside, tail, macs, rest, List.append_assoc]

theorem decapsulate_layout {macs inner : List UInt8} (macsLength : macs.length = 12)
    (payloadLen : UInt16) (saddr nexthop : CIpv6Addr) (l3Proto : UInt16) :
    decapPktDecapsulateIp6Gre true
        (macs ++ (outerHeaders payloadLen saddr nexthop l3Proto ++ inner)) ⟨l3Proto, nexthop⟩ =
      .ok (macs ++ (be16 l3Proto ++ inner)) := by
  have headers : (macs ++ outerHeaders payloadLen saddr nexthop l3Proto).length =
      ethHdrLen + encapLen := by
    simp [outerHeaders, macsLength, ethHdrLen, encapLen]
  have whole : ethHdrLen + encapLen ≤
      (macs ++ (outerHeaders payloadLen saddr nexthop l3Proto ++ inner)).length := by
    rw [← List.append_assoc, List.length_append, headers]
    exact Nat.le_add_right _ _
  have rest : (macs ++ (outerHeaders payloadLen saddr nexthop l3Proto ++ inner)).drop
      (ethHdrLen + encapLen) = inner := by
    rw [← List.append_assoc, List.drop_left' headers]
  rw [decapsulate_eq whole, List.take_left' macsLength, rest]

/-- Decapsulating what was encapsulated finds the nexthop it was sent to and gives
    back the original frame, byte for byte. -/
theorem decap_undoes_encap {Sock : Type*} (env : EncapEnv) (skb : Skb Sock)
    (metrics metrics' : Metrics) (pkt : EncapPacket) (nexthop : CIpv6Addr) (out : Frame)
    (etherType : slice skb.data 12 2 = be16 skb.protocol)
    (parsed : (encapPktParse env skb metrics).1 = .ok pkt)
    (encapsulated : encapPktEncapsulateIp6Gre env skb.data pkt nexthop = .ok out) :
    decapPktParse out metrics' = (.ok ⟨skb.protocol, nexthop⟩, metrics') ∧
      decapPktDecapsulateIp6Gre true out ⟨skb.protocol, nexthop⟩ = .ok skb.data := by
  obtain ⟨l3, valid, -⟩ := encapPktParse_ok parsed
  obtain ⟨parts, saddr, frame, -, rfl⟩ := encapsulate_layout encapsulated
  rw [l3]
  refine ⟨decapPktParse_layout metrics' parts.macs_length _ saddr nexthop valid, ?_⟩
  rw [decapsulate_layout parts.macs_length, ← frame, Parts.frame]
  rw [← frame, Parts.frame, slice_right parts.macs_length.le, parts.macs_length,
    slice_here parts.etherType_length] at etherType
  rw [etherType]

section

private def datagram : Skb ℕ := udpTo none (.new 203 0 113 9)

private def greHop : CIpv6Addr := .ofIpAddr (.v4 (.new 192 0 2 1))

theorem decap_undoes_encap_datagram :
    ∃ out, encapPktEncapsulateIp6Gre .smooth datagram.data
        ⟨ethP_IP, 17, ⟨128, .ofIpAddr (.v4 (.new 203 0 113 9))⟩⟩ greHop = .ok out ∧
      decapPktDecapsulateIp6Gre true out ⟨ethP_IP, greHop⟩ = .ok datagram.data := by
  obtain ⟨out, encapsulated⟩ : ∃ out, encapPktEncapsulateIp6Gre .smooth datagram.data
      ⟨ethP_IP, 17, ⟨128, .ofIpAddr (.v4 (.new 203 0 113 9))⟩⟩ greHop = .ok out :=
    ⟨_, rfl⟩
  refine ⟨out, encapsulated, ?_⟩
  exact (decap_undoes_encap .smooth datagram Metrics.zero Metrics.zero _ greHop out (by decide)
    (by decide +kernel) encapsulated).2

end

end Erez.Ebpf
