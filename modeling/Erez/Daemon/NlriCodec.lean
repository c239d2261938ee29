import Erez.Daemon.Abi

/-! # The prefix codec of the maps

`CNlri::from` and `IpNet::try_from` between the prefixes of userspace and the
keys of the maps. A key is either rejected by one of the two length guards or it
is the encoding of exactly one prefix, so past the guards the cast to an octet
loses nothing and `IpNet::new` cannot fail.
-/

namespace Erez.Daemon

/-- The address lies in `::ffff:0:0/96`. -/
def CIpv6Addr.Mapped (addr : CIpv6Addr) : Prop :=
  addr.octets.toList.take 12 = mappedOctets.toList

instance (addr : CIpv6Addr) : Decidable addr.Mapped :=
  inferInstanceAs (Decidable (_ = _))

/-- What the two guards of `try_from` let through. -/
def CNlri.LengthFits (nlri : CNlri) : Prop :=
  if nlri.address.Mapped then 96 ≤ nlri.prefixLen.toNat ∧ nlri.prefixLen.toNat ≤ 128
  else nlri.prefixLen.toNat ≤ 128

instance (nlri : CNlri) : Decidable nlri.LengthFits :=
  inferInstanceAs (Decidable (ite _ _ _))

/-- The bits of the mapping prefix in front of a prefix. -/
def IpNet.mappingBits : IpNet → ℕ
  | .v4 _ => 96
  | .v6 _ => 0

theorem toIpv4Mapped_isSome (addr : CIpv6Addr) :
    (Ipv6Addr.toIpv4Mapped ⟨addr.octets⟩).isSome ↔ addr.Mapped := by
  simp only [Ipv6Addr.toIpv4Mapped, CIpv6Addr.Mapped]
  split <;> simp_all

/-- Mapping the embedded address again gives the same octets. -/
theorem ofIpAddr_toIpv4Mapped {addr : CIpv6Addr} {mapped : Ipv4Addr}
    (embedded : Ipv6Addr.toIpv4Mapped ⟨addr.octets⟩ = some mapped) :
    CIpv6Addr.ofIpAddr (.v4 mapped) = addr := by
  obtain ⟨octets⟩ := addr
  simp only [Ipv6Addr.toIpv4Mapped, Option.ite_none_right_eq_some, Option.some.injEq] at embedded
  obtain ⟨front, rfl⟩ := embedded
  have octet : ∀ i (hi : i < 12), mappedOctets[i] = octets[i] := by
    intro i hi
    have same : (octets.toList.take 12)[i]? = mappedOctets.toList[i]? := by rw [front]
    rw [List.getElem?_take_of_lt hi, List.getElem?_eq_getElem (by simp; omega),
      List.getElem?_eq_getElem (by simpa using hi), Option.some.injEq] at same
    simpa using same.symm
  simp only [CIpv6Addr.ofIpAddr, CIpv6Addr.mk.injEq]
  ext i hi
  by_cases early : i < 12
  · rw [Vector.getElem_append_left early, octet i early]
  · rw [Vector.getElem_append_right (by omega) (by omega)]
    have late : i = 12 ∨ i = 13 ∨ i = 14 ∨ i = 15 := by omega
    obtain rfl | rfl | rfl | rfl := late <;> rfl

/-! ## Past the guards

The two casts keep the length, and the prefix is built. -/

private theorem v4_guard {prefixLen : UInt32} :
    ¬ (prefixLen < 96 ∨ prefixLen - 96 > 32) ↔ 96 ≤ prefixLen.toNat ∧ prefixLen.toNat ≤ 128 := by
  rw [not_or, gt_iff_lt, UInt32.lt_iff_toNat_lt, UInt32.lt_iff_toNat_lt, UInt32.toNat_sub]
  have bound := prefixLen.toNat_lt
  simp only [UInt32.reduceToNat]
  omega

private theorem v6_guard {prefixLen : UInt32} :
    ¬ prefixLen > 128 ↔ prefixLen.toNat ≤ 128 := by
  rw [gt_iff_lt, UInt32.lt_iff_toNat_lt]
  simp only [UInt32.reduceToNat]
  omega

private theorem v4_cast {prefixLen : UInt32} (low : 96 ≤ prefixLen.toNat)
    (high : prefixLen.toNat ≤ 128) : (prefixLen - 96).toUInt8.toNat + 96 = prefixLen.toNat := by
  rw [UInt32.toNat_toUInt8, UInt32.toNat_sub]
  simp only [UInt32.reduceToNat]
  omega

private theorem v6_cast {prefixLen : UInt32} (high : prefixLen.toNat ≤ 128) :
    prefixLen.toUInt8.toNat = prefixLen.toNat := by
  rw [UInt32.toNat_toUInt8]
  omega

/-- A key and the one prefix it stands for. -/
structure CNlri.Decodes (nlri : CNlri) (net : IpNet) : Prop where
  decoded : IpNet.tryFrom nlri = .ok net
  encoded : CNlri.ofIpNet net = nlri

theorem decodes_mapped {nlri : CNlri} {mapped : Ipv4Addr}
    (embedded : Ipv6Addr.toIpv4Mapped ⟨nlri.address.octets⟩ = some mapped)
    (low : 96 ≤ nlri.prefixLen.toNat) (high : nlri.prefixLen.toNat ≤ 128) :
    ∃ net, nlri.Decodes (.v4 net) := by
  have cast := v4_cast low high
  have valid : (nlri.prefixLen - 96).toUInt8.toNat ≤ 32 := by omega
  refine ⟨⟨mapped, (nlri.prefixLen - 96).toUInt8, valid⟩, ?_, ?_⟩
  · simp only [IpNet.tryFrom, embedded, if_neg (v4_guard.mpr ⟨low, high⟩), IpNet.new?,
      Ipv4Net.new?, dif_pos valid, Option.map_some]
  · have len : (nlri.prefixLen - 96).toUInt8.toUInt32 + 96 = nlri.prefixLen := by
      apply UInt32.toNat_inj.mp
      rw [UInt32.toNat_add, UInt8.toNat_toUInt32]
      simp only [UInt32.reduceToNat]
      omega
    simp only [CNlri.ofIpNet, IpNet.addr, IpNet.prefixLen, len, ofIpAddr_toIpv4Mapped embedded]

theorem decodes_native {nlri : CNlri}
    (native : Ipv6Addr.toIpv4Mapped ⟨nlri.address.octets⟩ = none)
    (high : nlri.prefixLen.toNat ≤ 128) : ∃ net, nlri.Decodes (.v6 net) := by
  have cast := v6_cast high
  have valid : nlri.prefixLen.toUInt8.toNat ≤ 128 := by omega
  refine ⟨⟨⟨nlri.address.octets⟩, nlri.prefixLen.toUInt8, valid⟩, ?_, ?_⟩
  · simp only [IpNet.tryFrom, native, if_neg (v6_guard.mpr high), IpNet.new?, Ipv6Net.new?,
      dif_pos valid, Option.map_some]
  · have len : nlri.prefixLen.toUInt8.toUInt32 = nlri.prefixLen := by
      apply UInt32.toNat_inj.mp
      rw [UInt8.toNat_toUInt32, cast]
    simp only [CNlri.ofIpNet, IpNet.addr, IpNet.prefixLen, len, CIpv6Addr.ofIpAddr]

theorem decodes_of_lengthFits {nlri : CNlri} (fits : nlri.LengthFits) : ∃ net, nlri.Decodes net := by
  cases embedded : Ipv6Addr.toIpv4Mapped ⟨nlri.address.octets⟩ with
  | some mapped =>
      have inside := (toIpv4Mapped_isSome nlri.address).mp (by rw [embedded]; rfl)
      rw [CNlri.LengthFits, if_pos inside] at fits
      obtain ⟨net, decodes⟩ := decodes_mapped embedded fits.1 fits.2
      exact ⟨.v4 net, decodes⟩
  | none =>
      have outside : ¬ nlri.address.Mapped := by
        rw [← toIpv4Mapped_isSome, embedded]
        simp
      rw [CNlri.LengthFits, if_neg outside] at fits
      obtain ⟨net, decodes⟩ := decodes_native embedded fits
      exact ⟨.v6 net, decodes⟩

/-! ## At the guards -/

/-- The message of the guard that rejects a key. -/
def CNlri.guardError (nlri : CNlri) : String :=
  if nlri.address.Mapped then s!"ipv4-mapped nlri has invalid prefix length {nlri.prefixLen}"
  else s!"ipv6 nlri has invalid prefix length {nlri.prefixLen}"

theorem tryFrom_of_not_lengthFits {nlri : CNlri} (misfit : ¬ nlri.LengthFits) :
    IpNet.tryFrom nlri = .error nlri.guardError := by
  cases embedded : Ipv6Addr.toIpv4Mapped ⟨nlri.address.octets⟩ with
  | some mapped =>
      have inside := (toIpv4Mapped_isSome nlri.address).mp (by rw [embedded]; rfl)
      rw [CNlri.LengthFits, if_pos inside, ← v4_guard, not_not] at misfit
      simp only [IpNet.tryFrom, embedded, if_pos misfit, CNlri.guardError, if_pos inside]
  | none =>
      have outside : ¬ nlri.address.Mapped := by
        rw [← toIpv4Mapped_isSome, embedded]
        simp
      rw [CNlri.LengthFits, if_neg outside, ← v6_guard, not_not] at misfit
      simp only [IpNet.tryFrom, embedded, if_pos misfit, CNlri.guardError, if_neg outside]

/-- `IpNet::new` never gets to speak: its message is not one of the guards'. -/
theorem guardError_ne (nlri : CNlri) : nlri.guardError ≠ "invalid IP prefix length" := by
  intro same
  have letters := congrArg (fun message => message.toList.take 2) same
  simp only [CNlri.guardError] at letters
  split at letters <;> simp [String.toList_append, toString] at letters

theorem tryFrom_error {nlri : CNlri} :
    (∃ error, IpNet.tryFrom nlri = .error error) ↔ ¬ nlri.LengthFits := by
  constructor
  · intro failed fits
    obtain ⟨error, failed⟩ := failed
    obtain ⟨net, decodes⟩ := decodes_of_lengthFits fits
    rw [decodes.decoded] at failed
    cases failed
  · intro misfit
    exact ⟨_, tryFrom_of_not_lengthFits misfit⟩

theorem ofIpNet_of_tryFrom {nlri : CNlri} {net : IpNet} (decoded : IpNet.tryFrom nlri = .ok net) :
    CNlri.ofIpNet net = nlri := by
  by_cases fits : nlri.LengthFits
  · obtain ⟨other, decodes⟩ := decodes_of_lengthFits fits
    have same := decodes.decoded.symm.trans decoded
    cases same
    exact decodes.encoded
  · rw [tryFrom_of_not_lengthFits fits] at decoded
    cases decoded

/-- The length of a key is the length of its prefix, past the 96 bits of the mapping. -/
theorem prefixLen_of_tryFrom {nlri : CNlri} {net : IpNet} (decoded : IpNet.tryFrom nlri = .ok net) :
    nlri.prefixLen.toNat = net.mappingBits + net.prefixLen.toNat := by
  rw [← ofIpNet_of_tryFrom decoded]
  cases net with
  | v4 net =>
      have valid := net.valid
      simp only [CNlri.ofIpNet, IpNet.addr, IpNet.prefixLen, IpNet.mappingBits, UInt32.toNat_add,
        UInt8.toNat_toUInt32, UInt32.reduceToNat]
      omega
  | v6 net => simp [CNlri.ofIpNet, IpNet.addr, IpNet.prefixLen, IpNet.mappingBits]

theorem nlri_codec_exact :
    (∀ net : IpNet, IpNet.tryFrom (.ofIpNet net) = .ok net ↔ net.addr.Native) ∧
      (∀ nlri net, IpNet.tryFrom nlri = .ok net → CNlri.ofIpNet net = nlri) ∧
      (∀ nlri : CNlri, (∃ error, IpNet.tryFrom nlri = .error error) ↔
        if nlri.address.Mapped then ¬ (96 ≤ nlri.prefixLen.toNat ∧ nlri.prefixLen.toNat ≤ 128)
        else 128 < nlri.prefixLen.toNat) ∧
      (∀ nlri error, IpNet.tryFrom nlri = .error error →
        error = nlri.guardError ∧ error ≠ "invalid IP prefix length") ∧
      ∀ nlri net, IpNet.tryFrom nlri = .ok net →
        nlri.prefixLen.toNat = net.mappingBits + net.prefixLen.toNat := by
  refine ⟨fun net => tryFrom_ofIpNet, fun nlri net => ofIpNet_of_tryFrom, ?_, ?_,
    fun nlri net => prefixLen_of_tryFrom⟩
  · intro nlri
    rw [tryFrom_error, CNlri.LengthFits]
    split
    · rfl
    · exact not_le
  · intro nlri error failed
    have misfit := tryFrom_error.mp ⟨error, failed⟩
    rw [tryFrom_of_not_lengthFits misfit] at failed
    cases failed
    exact ⟨rfl, guardError_ne nlri⟩

end Erez.Daemon
