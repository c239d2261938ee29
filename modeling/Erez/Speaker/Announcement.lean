import Erez.Speaker.Safety

/-! # What a peer says of itself

Every OPEN comes of the policy, which remembers the capabilities of the last OPEN it has
seen and echoes them. The AS number, the identifier and the hold time stay as they were
configured, whoever the peer on the other side is.
-/

namespace Erez.Speaker

open Daemon Lib

/-! ## One OPEN -/

namespace EchoCapabilitiesPolicy

/-- The number that the OPENs carry: of the configured four-octet numbers the last, or else
    the speaker's own. -/
def announcedAsn (policy : EchoCapabilitiesPolicy) : UInt32 :=
  ((policy.capabilities.filterMap BgpCapability.asn4?).getLast?).getD policy.myAsn

/-- What holds of an OPEN of this policy. -/
structure Announces (policy : EchoCapabilitiesPolicy) (ours : BgpOpenMessage) : Prop where
  bgpId : ours.bgpId = policy.myBgpId
  holdTime : ours.holdTime = policy.holdTimerDuration
  asn : ours.myAsn4 = policy.announcedAsn
  configured : ∀ cap ∈ policy.capabilities, cap ∈ ours.capabilities
  rejected : ∀ cap ∈ ours.capabilities, cap ∈ policy.rejectCapabilities →
    cap ∈ policy.capabilities ∨ cap = .fourOctetAs policy.myAsn

/-- The two octets of the header. -/
def shortAsn (policy : EchoCapabilitiesPolicy) : UInt16 :=
  if policy.myAsn > 65535 then asTrans else policy.myAsn.toUInt16

/-- The capabilities that are sent, the own number first. -/
def ownCapabilities (policy : EchoCapabilitiesPolicy) : List BgpCapability :=
  let asn4Cap : BgpCapability := .fourOctetAs policy.myAsn
  if (policy.sendAsn4CapByDefault || policy.shortAsn = asTrans) &&
      !policy.capabilities.contains asn4Cap
  then asn4Cap :: policy.capabilities
  else policy.capabilities

def echoed (policy : EchoCapabilitiesPolicy) : List BgpCapability :=
  policy.peerCapabilities.filter fun cap =>
    !policy.capabilities.contains cap && !policy.rejectCapabilities.contains cap

theorem capabilities_openMessage (policy : EchoCapabilitiesPolicy) :
    policy.openMessage.capabilities = policy.ownCapabilities ++ policy.echoed := by
  rw [BgpOpenMessage.capabilities]
  change List.flatMap _ (if policy.ownCapabilities ++ policy.echoed = [] then [] else _) = _
  split
  · rename_i none_
    rw [none_]
    rfl
  · exact List.append_nil _

theorem ownCapabilities_cases (policy : EchoCapabilitiesPolicy) :
    policy.ownCapabilities = .fourOctetAs policy.myAsn :: policy.capabilities ∨
      policy.ownCapabilities = policy.capabilities ∧
        (.fourOctetAs policy.myAsn ∈ policy.capabilities ∨ policy.myAsn ≤ 65535) := by
  rw [ownCapabilities]
  split
  · exact .inl rfl
  · rename_i unsent
    refine .inr ⟨rfl, ?_⟩
    by_cases member : .fourOctetAs policy.myAsn ∈ policy.capabilities
    · exact .inl member
    · refine .inr (UInt32.not_lt.mp fun large => unsent ?_)
      have long : policy.shortAsn = asTrans := if_pos large
      simp [member, long]

theorem toUInt32_toUInt16 {n : UInt32} (short : n ≤ 65535) : n.toUInt16.toUInt32 = n := by
  have small : n.toNat ≤ 65535 := short
  apply UInt32.toNat_inj.mp
  simp only [UInt16.toNat_toUInt32, UInt32.toNat_toUInt16]
  omega

theorem myAsn4_openMessage (policy : EchoCapabilitiesPolicy)
    (plain : ∀ cap ∈ policy.peerCapabilities, cap.asn4? = none) :
    policy.openMessage.myAsn4 = policy.announcedAsn := by
  have silent : policy.echoed.filterMap BgpCapability.asn4? = [] := by
    refine List.filterMap_eq_nil_iff.mpr fun cap member => ?_
    exact plain cap (List.mem_filter.mp member).1
  rw [BgpOpenMessage.myAsn4, capabilities_openMessage, List.filterMap_append, silent,
    List.append_nil, announcedAsn]
  rcases policy.ownCapabilities_cases with same | ⟨same, known⟩
  · rw [same]
    change ((policy.myAsn :: policy.capabilities.filterMap BgpCapability.asn4?).getLast?).getD _ = _
    rw [List.getLast?_cons]
    rfl
  · rw [same]
    cases last : (policy.capabilities.filterMap BgpCapability.asn4?).getLast? with
    | some asn => rfl
    | none =>
        have unnamed : .fourOctetAs policy.myAsn ∉ policy.capabilities := by
          intro member
          have found := List.mem_filterMap.mpr ⟨_, member, (rfl : BgpCapability.asn4? _ = some _)⟩
          rw [List.getLast?_eq_none_iff.mp last] at found
          cases found
        have short := known.resolve_left unnamed
        have header : policy.shortAsn = policy.myAsn.toUInt16 := if_neg (UInt32.not_lt.mpr short)
        change policy.shortAsn.toUInt32 = policy.myAsn
        rw [header]
        exact toUInt32_toUInt16 short

theorem openMessage_announces (policy : EchoCapabilitiesPolicy)
    (plain : ∀ cap ∈ policy.peerCapabilities, cap.asn4? = none) :
    policy.Announces policy.openMessage where
  bgpId := rfl
  holdTime := rfl
  asn := policy.myAsn4_openMessage plain
  configured cap member := by
    rw [capabilities_openMessage]
    refine List.mem_append_left _ ?_
    rcases policy.ownCapabilities_cases with same | ⟨same, -⟩
    · exact same ▸ List.mem_cons_of_mem _ member
    · exact same ▸ member
  rejected cap member rejected := by
    rw [capabilities_openMessage] at member
    rcases List.mem_append.mp member with own | echo
    · rcases policy.ownCapabilities_cases with same | ⟨same, -⟩
      · rw [same] at own
        exact (List.mem_cons.mp own).symm
      · exact .inl (same ▸ own)
    · simp [echoed, rejected] at echo

/-- It is the same policy, whatever it has seen since. -/
structure Remembers (policy later : EchoCapabilitiesPolicy) : Prop where
  same : ∃ remoteAs peerCapabilities, later = { policy with remoteAs, peerCapabilities }
  plain : ∀ cap ∈ later.peerCapabilities, cap.asn4? = none

theorem Remembers.hook {policy later : EchoCapabilitiesPolicy} (remembers : policy.Remembers later)
    (event : ConnectionEvent) : policy.Remembers (later.preHandleConnectionEventHook event) := by
  obtain ⟨⟨_, _, rfl⟩, plain⟩ := remembers
  have seen (message : BgpOpenMessage) :
      ∀ cap ∈ message.capabilities.filter fun cap => cap.asn4?.isNone, cap.asn4? = none := by
    intro cap member
    simpa using (List.mem_filter.mp member).2
  cases event with
  | bgpOpen message | bgpOpenWithDelayOpenTimer message => exact ⟨⟨_, _, rfl⟩, seen message⟩
  | _ => exact ⟨⟨_, _, rfl⟩, plain⟩

theorem Remembers.announces {policy later : EchoCapabilitiesPolicy}
    (remembers : policy.Remembers later) : policy.Announces later.openMessage := by
  obtain ⟨⟨_, _, rfl⟩, plain⟩ := remembers
  have said := openMessage_announces _ plain
  exact ⟨said.bgpId, said.holdTime, said.asn, said.configured, said.rejected⟩

end EchoCapabilitiesPolicy

/-! ## Every OPEN -/

open Connection (startSend_inner)

theorem Offered.inner {c c' : Connection} {message : BgpMessage} (offered : Offered c message c') :
    c'.inner = c.inner ∨ c'.inner = c.inner ++ [message] := by
  rcases offered with rfl | rfl
  · exact .inl rfl
  · exact .inr (startSend_inner c message)

theorem Notified.open_mem {c c' : Connection} {said : BgpOpenMessage} (notified : Notified c c')
    (member : .openMsg said ∈ c'.inner) : .openMsg said ∈ c.inner := by
  obtain ⟨notif, offered⟩ := notified
  rcases offered.inner with same | same <;> simpa [same] using member

/-- The OPENs that the stream has been given are those that it had and `ours`. -/
theorem Handled.open_mem {ours said : BgpOpenMessage} {c c' : Connection} {event : ConnectionEvent}
    {stop : Option Stop} (handled : Handled ours c event c' stop)
    (member : .openMsg said ∈ c'.inner) : .openMsg said ∈ c.inner ∨ said = ours := by
  cases handled with
  | quiet | waits | establishes => exact .inl member
  | opens | answers => simpa [startSend_inner] using member
  | confirms | keepsAlive => exact .inl (by simpa [startSend_inner] using member)
  | openStopped at_ h offered | confirmStopped at_ offered | keepAliveStopped at_ offered =>
      rcases offered.inner with same | same <;> simp [same] at member <;> tauto
  | answerStopped at_ offered =>
      rcases offered with offered | offered <;> rcases offered.inner with same | same <;>
        simp [same, startSend_inner] at member <;> tauto
  | ends fatal notified | endStopped fatal notified | endStoppedLate at_ notified =>
      exact .inl (notified.open_mem member)

namespace Peer

/-- Every OPEN that the stream of a connection has been given is as `G` says. -/
theorem opens_stable (G : BgpOpenMessage → Prop) (properties : PeerProperties)
    (config : PeerConfig) :
    Stable G (fun c => ∀ ours, .openMsg ours ∈ c.inner → G ours) properties config where
  arrives type timing event c ours asks _ handled said member := by
    rcases handled.open_mem member with old | rfl
    · cases old
    · exact asks
  polled c stimulus c' event opens polled said member := by
    obtain ⟨_, _, _, rfl⟩ := Connection.pollNext_frame polled
    exact opens said member
  handled c stimulus c' event c'' ours stop asks opens polled handled said member := by
    obtain ⟨_, _, _, rfl⟩ := Connection.pollNext_frame polled
    rcases handled.open_mem member with old | rfl
    · exact opens said old
    · exact asks
  notified c c' opens notified said member := opens said (notified.open_mem member)

/-- Whatever a peer has been sent, and on whichever connection, its OPENs announce what it was
    configured with: its own number, identifier and hold time, and each of its capabilities. -/
theorem opens_announce {p : Peer} (properties : PeerProperties) (config : PeerConfig)
    (policy : EchoCapabilitiesPolicy)
    (plain : ∀ cap ∈ policy.peerCapabilities, cap.asn4? = none) (inputs : List Input)
    (run : inputs.foldlM next (new properties config policy) = .ok p) :
    p.Holds fun c => ∀ ours, .openMsg ours ∈ c.inner → policy.Announces ours := by
  refine run_holds (opens_stable policy.Announces properties config) policy.Remembers ?_ ?_
    ⟨⟨_, _, rfl⟩, plain⟩ run
  · intro later remembers
    exact ⟨remembers.announces, fun event => (remembers.hook event).announces⟩
  · intro later event remembers
    exact remembers.hook event

theorem exampleSession_announces :
    ∃ p c, exampleSession.foldlM next (new exampleProperties .default examplePolicy) = .ok p ∧
      p.connection = some c ∧ .openMsg examplePolicy.openMessage ∈ c.inner ∧
        p.Holds fun c => ∀ ours, .openMsg ours ∈ c.inner → examplePolicy.Announces ours :=
  ⟨_, _, rfl, rfl, .head _, opens_announce exampleProperties .default examplePolicy
    (by rintro _ ⟨⟩) exampleSession rfl⟩

end Peer

end Erez.Speaker
