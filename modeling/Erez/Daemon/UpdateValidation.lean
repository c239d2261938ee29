import Erez.Wire.MpAttributes

/-! # From the UPDATE validator to the daemon's updates

The validator looks through the path attributes until it has seen the mandatory
ones, and rejects a message in which it met a multiprotocol attribute twice. What
stands behind the point where it stops it never looks at, and it asks for a NEXT_HOP
only where there is no multiprotocol attribute. The daemon takes the first attribute
of each kind and gives up on a message whose NLRI have no NEXT_HOP.
-/

namespace Erez.Daemon

/-! ## The validator -/

namespace BgpUpdateMessage

/-- The loop of `end_of_rib`. `otherEor` is its answer for an MP_UNREACH_NLRI of a
    family that the daemon does not route. -/
def endOfRibLoop (otherEor : Option AddressType) :
    List PathAttributeValue → (current : Option AddressType) → (mpUnreachCount : ℕ) →
      Option AddressType
  | [], current, _ => current
  | .mpReach _ :: _, _, _ => none
  | .mpUnreach unreach :: rest, current, mpUnreachCount =>
      let mpUnreachCount := mpUnreachCount + 1
      -- Only one MpUnreach is used to indicate End-of-RIB.
      if mpUnreachCount > 1 then none
      else
        match unreach with
        | .ipv4Unicast nlri =>
            endOfRibLoop otherEor rest (if nlri = [] then some .ipv4Unicast else current)
              mpUnreachCount
        | .ipv6Unicast nlri =>
            endOfRibLoop otherEor rest (if nlri = [] then some .ipv6Unicast else current)
              mpUnreachCount
        | .other => endOfRibLoop otherEor rest otherEor mpUnreachCount
  | _ :: rest, current, mpUnreachCount => endOfRibLoop otherEor rest current mpUnreachCount

/-- The address family of an End-of-RIB message. -/
def endOfRib (otherEor : Option AddressType) (msg : BgpUpdateMessage) : Option AddressType :=
  if msg.nlri ≠ [] ∨ msg.withdrawRoutes ≠ [] then none
  else if msg.pathAttributes = [] then some .ipv4Unicast
  else endOfRibLoop otherEor msg.pathAttributes none 0

end BgpUpdateMessage

inductive UpdateMessageError where
  | malformedAttributeList (value : List UInt8)
  | missingWellKnownAttribute (value : List UInt8)
  deriving DecidableEq

inductive ConnectionEvent where
  | updateMsg (update : BgpUpdateMessage) (treatment : UpdateTreatment)
  | updateMsgErr (error : UpdateMessageError)
  deriving DecidableEq

/-- The codes of the attributes that an error can name. -/
def originType : UInt8 := 1

def asPathType : UInt8 := 2

def nextHopType : UInt8 := 3

/-- The local variables of the validator's loop. -/
structure AttributeScan where
  hasOrigin : Bool
  hasAsnPath : Bool
  hasNextHop : Bool
  mpReachCount : ℕ
  mpUnreachCount : ℕ

namespace AttributeScan

def start : AttributeScan :=
  ⟨false, false, false, 0, 0⟩

def visit (seen : AttributeScan) : PathAttributeValue → AttributeScan
  | .origin => { seen with hasOrigin := true }
  | .asPath => { seen with hasAsnPath := true }
  | .as4Path => { seen with hasAsnPath := true }
  | .nextHop _ => { seen with hasNextHop := true }
  | .mpReach _ => { seen with mpReachCount := seen.mpReachCount + 1 }
  | .mpUnreach _ => { seen with mpUnreachCount := seen.mpUnreachCount + 1 }
  | .other => seen

/-- The condition of the `break`. -/
def complete (seen : AttributeScan) : Bool :=
  seen.hasOrigin && seen.hasAsnPath && seen.hasNextHop

def run : List PathAttributeValue → AttributeScan → AttributeScan
  | [], seen => seen
  | attr :: rest, seen => if seen.complete then seen else run rest (seen.visit attr)

end AttributeScan

/-- `handle_update_message`, with the treatment that the parsing errors call for. -/
def handleUpdateMessage (otherEor : Option AddressType) (update : BgpUpdateMessage)
    (treatment : UpdateTreatment) : Option ConnectionEvent :=
  let endOfRib := update.endOfRib otherEor
  let seen := AttributeScan.run update.pathAttributes .start
  if endOfRib.isNone ∧ ¬ seen.hasOrigin ∧ (seen.mpReachCount > 0 ∨ update.nlri ≠ []) then
    some (.updateMsgErr (.missingWellKnownAttribute [originType]))
  else if endOfRib.isNone ∧ ¬ seen.hasAsnPath ∧ (seen.mpReachCount > 0 ∨ update.nlri ≠ []) then
    some (.updateMsgErr (.missingWellKnownAttribute [asPathType]))
  else if endOfRib.isNone ∧ seen.mpReachCount = 0 ∧ seen.mpUnreachCount = 0 ∧
      ¬ seen.hasNextHop ∧ update.nlri ≠ [] then
    -- Complain if BGP-MP is not used and there are reachable NLRI announced.
    some (.updateMsgErr (.missingWellKnownAttribute [nextHopType]))
  else if seen.mpReachCount > 1 ∨ seen.mpUnreachCount > 1 then
    some (.updateMsgErr (.malformedAttributeList []))
  else some (.updateMsg update treatment)

/-! ## What a message carries -/

namespace PathAttributeValue

def mpReach? : PathAttributeValue → Option MpReach
  | .mpReach reach => some reach
  | _ => none

def mpUnreach? : PathAttributeValue → Option MpUnreach
  | .mpUnreach unreach => some unreach
  | _ => none

end PathAttributeValue

def MpReach.announced : MpReach → List (Route × Nexthop)
  | .ipv4Unicast nextHop _ nlri => nlri.map fun address => (.ofIpv4 address, nextHop)
  | .ipv6Unicast nextHopGlobal _ nlri =>
      nlri.map fun address => (.ofIpv6 address, .v6 nextHopGlobal)
  | .other => []

def MpUnreach.withdrawn : MpUnreach → List Route
  | .ipv4Unicast nlri => nlri.map .ofIpv4
  | .ipv6Unicast nlri => nlri.map .ofIpv6
  | .other => []

namespace BgpUpdateMessage

def mpReaches (msg : BgpUpdateMessage) : List MpReach :=
  msg.pathAttributes.filterMap PathAttributeValue.mpReach?

def mpUnreaches (msg : BgpUpdateMessage) : List MpUnreach :=
  msg.pathAttributes.filterMap PathAttributeValue.mpUnreach?

/-- The NLRI field with its NEXT_HOP. -/
def legacyAnnounced (msg : BgpUpdateMessage) : List (Route × Nexthop) :=
  match msg.nextHop? with
  | some nexthop => msg.nlri.map fun address => (.ofIpv4 address, nexthop)
  | none => []

/-- All announced routes: the NLRI field, and every MP_REACH_NLRI of a unicast family. -/
def announcedRoutes (msg : BgpUpdateMessage) : Multiset (Route × Nexthop) :=
  msg.legacyAnnounced ++ msg.mpReaches.flatMap MpReach.announced

/-- All withdrawn routes: the field, and every MP_UNREACH_NLRI of a unicast family. -/
def withdrawnRoutes (msg : BgpUpdateMessage) : Multiset Route :=
  msg.withdrawRoutes.map Route.ofIpv4 ++ msg.mpUnreaches.flatMap MpUnreach.withdrawn

/-- The daemon makes an update of the message, with exactly the routes it carries. -/
def Preserved (msg : BgpUpdateMessage) : Prop :=
  ∃ update, Update.tryFrom msg = .ok update ∧
    (update.announced : Multiset (Route × Nexthop)) = msg.announcedRoutes ∧
    (update.withdrawals : Multiset Route) = msg.withdrawnRoutes

/-- Unicast routes in multiprotocol attributes after the first of their kind. -/
def RepeatsRoutes (msg : BgpUpdateMessage) : Prop :=
  msg.mpReaches.tail.flatMap MpReach.announced ≠ [] ∨
    msg.mpUnreaches.tail.flatMap MpUnreach.withdrawn ≠ []

instance (msg : BgpUpdateMessage) : Decidable msg.RepeatsRoutes :=
  inferInstanceAs (Decidable (_ ∨ _))

theorem mpReach?_eq (msg : BgpUpdateMessage) : msg.mpReach? = msg.mpReaches.head? := by
  rw [mpReaches, List.head?_filterMap]
  rfl

theorem mpUnreach?_eq (msg : BgpUpdateMessage) : msg.mpUnreach? = msg.mpUnreaches.head? := by
  rw [mpUnreaches, List.head?_filterMap]
  rfl

private theorem announced_append {front : List Announcement} {withdrawals : List Route}
    (reach : Option MpReach) :
    Update.announced ⟨front ++ (match reach with
      | some (.ipv4Unicast nextHop _ nlri) => [⟨nlri.map .ofIpv4, nextHop⟩]
      | some (.ipv6Unicast nextHopGlobal _ nlri) => [⟨nlri.map .ofIpv6, .v6 nextHopGlobal⟩]
      | _ => []), withdrawals⟩ =
    Update.announced ⟨front, withdrawals⟩ ++ reach.toList.flatMap MpReach.announced := by
  simp only [Update.announced, List.flatMap_append]
  congr 1
  rcases reach with - | ⟨-, -, -⟩ | ⟨-, -, -⟩ | - <;> simp [MpReach.announced]

private theorem withdrawn_eq (unreach : Option MpUnreach) :
    (match unreach with
      | some (.ipv4Unicast nlri) => nlri.map .ofIpv4
      | some (.ipv6Unicast nlri) => nlri.map .ofIpv6
      | _ => [] : List Route) = unreach.toList.flatMap MpUnreach.withdrawn := by
  rcases unreach with - | - | - | - <;> simp [MpUnreach.withdrawn]

/-- The daemon's update: the NLRI field and the first attribute of each kind. -/
theorem tryFrom_of_complete {msg : BgpUpdateMessage}
    (complete : msg.nlri = [] ∨ msg.nextHop? ≠ none) :
    ∃ update, Update.tryFrom msg = .ok update ∧
      update.announced = msg.legacyAnnounced ++
        msg.mpReaches.head?.toList.flatMap MpReach.announced ∧
      update.withdrawals = msg.withdrawRoutes.map .ofIpv4 ++
        msg.mpUnreaches.head?.toList.flatMap MpUnreach.withdrawn := by
  rw [← mpReach?_eq, ← mpUnreach?_eq, ← withdrawn_eq]
  by_cases empty : msg.nlri = []
  · have nothing : msg.legacyAnnounced = [] := by
      cases found : msg.nextHop? <;> simp [legacyAnnounced, found, empty]
    rw [nothing]
    refine ⟨_, by simp only [Update.tryFrom, if_pos empty]; rfl, ?_, rfl⟩
    exact announced_append msg.mpReach?
  · obtain ⟨nexthop, found⟩ := Option.ne_none_iff_exists'.mp (complete.resolve_left empty)
    have pairs : msg.legacyAnnounced = Update.announced ⟨[⟨msg.nlri.map .ofIpv4, nexthop⟩], []⟩ := by
      simp [legacyAnnounced, Update.announced, found]
    rw [pairs]
    refine ⟨_, by simp only [Update.tryFrom, if_neg empty, found]; rfl, ?_, rfl⟩
    exact announced_append msg.mpReach?

theorem tryFrom_of_incomplete {msg : BgpUpdateMessage} (announces : msg.nlri ≠ [])
    (missing : msg.nextHop? = none) :
    Update.tryFrom msg = .error "bgp update missing nexthop" := by
  simp only [Update.tryFrom, if_neg announces, missing, bind, Except.bind]

private theorem coe_append_head_eq {α β : Type*} {front : List β} {attrs : List α}
    {routes : α → List β} :
    ((front ++ attrs.head?.toList.flatMap routes : List β) : Multiset β) =
      (front ++ attrs.flatMap routes : List β) ↔ attrs.tail.flatMap routes = [] := by
  cases attrs with
  | nil => simp
  | cons attr rest =>
      simp only [List.head?_cons, Option.toList_some, List.tail_cons, List.flatMap_cons,
        List.flatMap_nil, List.append_nil]
      constructor
      · intro same
        have size := congrArg Multiset.card same
        simp only [Multiset.coe_card, List.length_append] at size
        exact List.length_eq_zero_iff.mp (by omega)
      · intro none
        rw [none, List.append_nil]

/-- Nothing is lost when the NLRI have a NEXT_HOP and no attribute repeats another. -/
theorem preserved_iff {msg : BgpUpdateMessage} :
    msg.Preserved ↔ (msg.nlri = [] ∨ msg.nextHop? ≠ none) ∧ ¬ msg.RepeatsRoutes := by
  by_cases complete : msg.nlri = [] ∨ msg.nextHop? ≠ none
  · obtain ⟨update, decoded, announced, withdrawn⟩ := tryFrom_of_complete complete
    have unfolded : msg.Preserved ↔
        (update.announced : Multiset (Route × Nexthop)) = msg.announcedRoutes ∧
          (update.withdrawals : Multiset Route) = msg.withdrawnRoutes := by
      constructor
      · rintro ⟨same, again, both⟩
        obtain rfl := Except.ok.inj (decoded.symm.trans again)
        exact both
      · intro both
        exact ⟨update, decoded, both⟩
    rw [unfolded, announced, withdrawn, announcedRoutes, withdrawnRoutes, coe_append_head_eq,
      coe_append_head_eq, RepeatsRoutes]
    simp only [complete, true_and, not_or, not_not]
  · obtain ⟨announces, missing⟩ := not_or.mp complete
    refine iff_of_false ?_ fun both => complete both.1
    rintro ⟨update, decoded, -⟩
    rw [tryFrom_of_incomplete announces (not_not.mp missing)] at decoded
    cases decoded

end BgpUpdateMessage

/-! ## What the validator has seen -/

namespace AttributeScan

/-- The attributes that the loop looks at, before it stops. -/
def examined : List PathAttributeValue → AttributeScan → List PathAttributeValue
  | [], _ => []
  | attr :: rest, seen => if seen.complete then [] else attr :: examined rest (seen.visit attr)

theorem run_eq_foldl (attrs : List PathAttributeValue) (seen : AttributeScan) :
    run attrs seen = (examined attrs seen).foldl visit seen := by
  induction attrs generalizing seen with
  | nil => rfl
  | cons attr rest ih =>
      rw [run, examined]
      split
      · rfl
      · exact ih (seen.visit attr)

/-- The loop stops early only when it has seen what it looks for. -/
theorem complete_or_examined (attrs : List PathAttributeValue) (seen : AttributeScan) :
    (run attrs seen).complete = true ∨ examined attrs seen = attrs := by
  induction attrs generalizing seen with
  | nil => exact .inr rfl
  | cons attr rest ih =>
      rw [run, examined]
      split
      · rename_i done
        exact .inl done
      · exact (ih (seen.visit attr)).imp id (congrArg (attr :: ·))

theorem examined_subset (attrs : List PathAttributeValue) (seen : AttributeScan) :
    examined attrs seen ⊆ attrs := by
  induction attrs generalizing seen with
  | nil => exact List.Subset.refl _
  | cons attr rest ih =>
      rw [examined]
      split
      · exact List.nil_subset _
      · exact List.cons_subset_cons attr (ih (seen.visit attr))

/-- What the variables say about a list of attributes. -/
structure Describes (seen : AttributeScan) (attrs : List PathAttributeValue) : Prop where
  hasOrigin : seen.hasOrigin = true ↔ .origin ∈ attrs
  hasAsnPath : seen.hasAsnPath = true ↔ .asPath ∈ attrs ∨ .as4Path ∈ attrs
  hasNextHop : seen.hasNextHop = true ↔ ∃ nextHop, .nextHop nextHop ∈ attrs
  mpReachCount : seen.mpReachCount = (attrs.filterMap PathAttributeValue.mpReach?).length
  mpUnreachCount : seen.mpUnreachCount = (attrs.filterMap PathAttributeValue.mpUnreach?).length

theorem Describes.visit {seen : AttributeScan} {attrs : List PathAttributeValue}
    (h : seen.Describes attrs) (attr : PathAttributeValue) :
    (seen.visit attr).Describes (attrs ++ [attr]) := by
  obtain ⟨origin, asnPath, nextHop, reach, unreach⟩ := h
  cases attr <;> constructor <;>
    simp [AttributeScan.visit, origin, asnPath, nextHop, reach, unreach,
      PathAttributeValue.mpReach?, PathAttributeValue.mpUnreach?]

theorem describes_foldl (attrs : List PathAttributeValue) :
    (attrs.foldl visit start).Describes attrs := by
  induction attrs using List.reverseRecOn with
  | nil => constructor <;> simp [start]
  | append_singleton attrs attr ih =>
      rw [List.foldl_concat]
      exact ih.visit attr

end AttributeScan

namespace BgpUpdateMessage

def examined (msg : BgpUpdateMessage) : List PathAttributeValue :=
  AttributeScan.examined msg.pathAttributes .start

/-- The variables of the validator's loop at its end. -/
def scan (msg : BgpUpdateMessage) : AttributeScan :=
  AttributeScan.run msg.pathAttributes .start

theorem describes_scan (msg : BgpUpdateMessage) : msg.scan.Describes msg.examined := by
  rw [scan, AttributeScan.run_eq_foldl]
  exact AttributeScan.describes_foldl msg.examined

private theorem endOfRibLoop_reach {otherEor : Option AddressType}
    {attrs : List PathAttributeValue} {reach : MpReach} (announces : .mpReach reach ∈ attrs)
    (current : Option AddressType) (mpUnreachCount : ℕ) :
    endOfRibLoop otherEor attrs current mpUnreachCount = none := by
  induction attrs generalizing current mpUnreachCount with
  | nil => cases announces
  | cons attr rest ih =>
      cases attr with
      | mpReach first => rfl
      | mpUnreach unreach =>
          have later := (List.mem_cons.mp announces).resolve_left (by simp)
          simp only [endOfRibLoop]
          split
          · rfl
          · cases unreach <;> exact ih later _ _
      | origin | asPath | as4Path | nextHop | other =>
          exact ih ((List.mem_cons.mp announces).resolve_left (by simp)) _ _

/-- A message that announces routes is no End-of-RIB. -/
theorem endOfRib_none {otherEor : Option AddressType} {msg : BgpUpdateMessage}
    (announces : 0 < msg.scan.mpReachCount ∨ msg.nlri ≠ []) : msg.endOfRib otherEor = none := by
  unfold endOfRib
  split
  · rfl
  · rename_i fields
    have counted := announces.resolve_right fun nlri => fields (.inl nlri)
    rw [msg.describes_scan.mpReachCount, List.length_pos_iff_exists_mem] at counted
    obtain ⟨reach, member⟩ := counted
    obtain ⟨attr, seen, value⟩ := List.mem_filterMap.mp member
    have inside : .mpReach reach ∈ msg.pathAttributes := by
      cases attr with
      | mpReach own =>
          obtain rfl := Option.some.inj value
          exact AttributeScan.examined_subset _ _ seen
      | origin | asPath | as4Path | nextHop | mpUnreach | other => cases value
    split
    · rename_i empty
      rw [empty] at inside
      cases inside
    · exact endOfRibLoop_reach inside none 0

/-- When the validator passes a message on. -/
theorem passed_iff {otherEor : Option AddressType} {msg : BgpUpdateMessage}
    {treatment : UpdateTreatment} :
    handleUpdateMessage otherEor msg treatment = some (.updateMsg msg treatment) ↔
      (0 < msg.scan.mpReachCount ∨ msg.nlri ≠ [] →
        msg.scan.hasOrigin = true ∧ msg.scan.hasAsnPath = true) ∧
      (msg.nlri ≠ [] → msg.scan.hasNextHop = true ∨ 0 < msg.scan.mpReachCount ∨
        0 < msg.scan.mpUnreachCount) ∧
      msg.scan.mpReachCount ≤ 1 ∧ msg.scan.mpUnreachCount ≤ 1 := by
  have unfolded : handleUpdateMessage otherEor msg treatment =
      some (.updateMsg msg treatment) ↔
      ¬ ((msg.endOfRib otherEor).isNone ∧ ¬ msg.scan.hasOrigin ∧
        (msg.scan.mpReachCount > 0 ∨ msg.nlri ≠ [])) ∧
      ¬ ((msg.endOfRib otherEor).isNone ∧ ¬ msg.scan.hasAsnPath ∧
        (msg.scan.mpReachCount > 0 ∨ msg.nlri ≠ [])) ∧
      ¬ ((msg.endOfRib otherEor).isNone ∧ msg.scan.mpReachCount = 0 ∧
        msg.scan.mpUnreachCount = 0 ∧ ¬ msg.scan.hasNextHop ∧ msg.nlri ≠ []) ∧
      ¬ (msg.scan.mpReachCount > 1 ∨ msg.scan.mpUnreachCount > 1) := by
    change (ite _ _ _ = _) ↔ _
    split_ifs with origin asnPath nextHop repeated
    · exact iff_of_false (by simp) fun all => all.1 origin
    · exact iff_of_false (by simp) fun all => all.2.1 asnPath
    · exact iff_of_false (by simp) fun all => all.2.2.1 nextHop
    · exact iff_of_false (by simp) fun all => all.2.2.2 repeated
    · exact iff_of_true rfl ⟨origin, asnPath, nextHop, repeated⟩
  rw [unfolded]
  by_cases announces : 0 < msg.scan.mpReachCount ∨ msg.nlri ≠ []
  · have regular : msg.endOfRib otherEor = none := endOfRib_none announces
    simp only [regular, Option.isNone_none, gt_iff_lt, announces]
    grind
  · obtain ⟨unreached, empty⟩ := not_or.mp announces
    simp only [gt_iff_lt, announces]
    grind

/-! ## What gets lost -/

/-- NLRI without a NEXT_HOP, in an otherwise complete message with multiprotocol
    attributes beside them. -/
structure LacksNextHop (msg : BgpUpdateMessage) : Prop where
  announces : msg.nlri ≠ []
  nextHop : ∀ nextHop, .nextHop nextHop ∉ msg.pathAttributes
  origin : .origin ∈ msg.pathAttributes
  asnPath : .asPath ∈ msg.pathAttributes ∨ .as4Path ∈ msg.pathAttributes
  multiprotocol : msg.mpReaches ≠ [] ∨ msg.mpUnreaches ≠ []
  mpReaches : msg.mpReaches.length ≤ 1
  mpUnreaches : msg.mpUnreaches.length ≤ 1

/-- A multiprotocol attribute after the first of its kind carries routes, but the loop
    had stopped before it met a second one. -/
structure HidesRoutes (msg : BgpUpdateMessage) : Prop where
  mpReaches : (msg.examined.filterMap PathAttributeValue.mpReach?).length ≤ 1
  mpUnreaches : (msg.examined.filterMap PathAttributeValue.mpUnreach?).length ≤ 1
  repeats : msg.RepeatsRoutes

theorem nextHop?_eq_none {msg : BgpUpdateMessage} :
    msg.nextHop? = none ↔ ∀ nextHop, .nextHop nextHop ∉ msg.pathAttributes := by
  rw [nextHop?, List.findSome?_eq_none_iff]
  constructor
  · intro none nextHop member
    cases none _ member
  · intro absent attr member
    cases attr with
    | nextHop nextHop => exact absurd member (absent nextHop)
    | origin | asPath | as4Path | mpReach | mpUnreach | other => rfl

/-- Without a NEXT_HOP the loop runs to the end. -/
theorem examined_of_no_nextHop {msg : BgpUpdateMessage}
    (absent : ∀ nextHop, .nextHop nextHop ∉ msg.pathAttributes) :
    msg.examined = msg.pathAttributes := by
  refine (AttributeScan.complete_or_examined msg.pathAttributes .start).resolve_left fun done => ?_
  have seen : msg.scan.hasNextHop = true := (Bool.and_eq_true_iff.mp done).2
  obtain ⟨nextHop, member⟩ := msg.describes_scan.hasNextHop.mp seen
  exact absent nextHop (AttributeScan.examined_subset _ _ member)

theorem LacksNextHop.passed {msg : BgpUpdateMessage} (h : msg.LacksNextHop)
    (otherEor : Option AddressType) (treatment : UpdateTreatment) :
    handleUpdateMessage otherEor msg treatment = some (.updateMsg msg treatment) := by
  obtain ⟨origin, asnPath, -, reach, unreach⟩ := msg.describes_scan
  rw [examined_of_no_nextHop h.nextHop] at origin asnPath reach unreach
  refine passed_iff.mpr ⟨fun _ => ⟨origin.mpr h.origin, asnPath.mpr h.asnPath⟩, fun _ => .inr ?_,
    reach.trans_le h.mpReaches, unreach.trans_le h.mpUnreaches⟩
  rw [reach, unreach]
  exact h.multiprotocol.imp List.length_pos_iff.mpr List.length_pos_iff.mpr

theorem HidesRoutes.passed {msg : BgpUpdateMessage} (h : msg.HidesRoutes)
    (otherEor : Option AddressType) (treatment : UpdateTreatment) :
    handleUpdateMessage otherEor msg treatment = some (.updateMsg msg treatment) := by
  have seen := msg.describes_scan
  rcases AttributeScan.complete_or_examined msg.pathAttributes .start with done | all
  · obtain ⟨both, nextHop⟩ := Bool.and_eq_true_iff.mp done
    exact passed_iff.mpr ⟨fun _ => Bool.and_eq_true_iff.mp both, fun _ => .inl nextHop,
      seen.mpReachCount.trans_le h.mpReaches, seen.mpUnreachCount.trans_le h.mpUnreaches⟩
  · -- The loop has seen all attributes, and no two of a kind.
    have once : ∀ {α β : Type} (attrs : List α) (routes : α → List β), attrs.length ≤ 1 →
        attrs.tail.flatMap routes = [] := by
      intro α β attrs routes few
      have rest : attrs.tail = [] := List.length_eq_zero_iff.mp (by simp; omega)
      rw [rest, List.flatMap_nil]
    have whole : msg.examined = msg.pathAttributes := all
    have reaches := h.mpReaches
    have unreaches := h.mpUnreaches
    rw [whole] at reaches unreaches
    rcases h.repeats with announced | withdrawn
    · exact absurd (once msg.mpReaches _ reaches) announced
    · exact absurd (once msg.mpUnreaches _ unreaches) withdrawn

/-- Exactly the messages that lose routes on the way to the daemon. -/
theorem preserved_when_passed_iff (otherEor : Option AddressType) (msg : BgpUpdateMessage)
    (treatment : UpdateTreatment) :
    (handleUpdateMessage otherEor msg treatment = some (.updateMsg msg treatment) →
      msg.Preserved) ↔ ¬ msg.LacksNextHop ∧ ¬ msg.HidesRoutes := by
  rw [preserved_iff]
  constructor
  · intro preserved
    constructor
    · intro lacks
      rcases (preserved (lacks.passed otherEor treatment)).1 with empty | named
      · exact lacks.announces empty
      · exact named (nextHop?_eq_none.mpr lacks.nextHop)
    · intro hides
      exact (preserved (hides.passed otherEor treatment)).2 hides.repeats
  · rintro ⟨named, shown⟩ passed
    obtain ⟨mandatory, multiprotocol, reachOnce, unreachOnce⟩ := passed_iff.mp passed
    obtain ⟨origin, asnPath, nextHop, reach, unreach⟩ := msg.describes_scan
    constructor
    · by_contra incomplete
      obtain ⟨announces, missing⟩ := not_or.mp incomplete
      have absent := nextHop?_eq_none.mp (not_not.mp missing)
      have whole := examined_of_no_nextHop absent
      rw [whole] at origin asnPath nextHop reach unreach
      have unnamed : ¬ msg.scan.hasNextHop = true := by
        rw [nextHop]
        rintro ⟨nextHop, member⟩
        exact absent nextHop member
      obtain ⟨hasOrigin, hasAsnPath⟩ := mandatory (.inr announces)
      have used := (multiprotocol announces).resolve_left unnamed
      rw [reach, unreach, List.length_pos_iff, List.length_pos_iff] at used
      exact named ⟨announces, absent, origin.mp hasOrigin, asnPath.mp hasAsnPath, used,
        reach.symm.trans_le reachOnce, unreach.symm.trans_le unreachOnce⟩
    · intro repeats
      exact shown ⟨reach.symm.trans_le reachOnce, unreach.symm.trans_le unreachOnce, repeats⟩

/-- The mandatory attributes, and behind them two sets of IPv4 routes. -/
private def doubled : BgpUpdateMessage :=
  ⟨[], [.origin, .asPath, .nextHop (.new 192 0 2 1),
    .mpReach (.ipv4Unicast (.v4 (.new 192 0 2 1)) none
      [⟨some 1, ⟨.clamped (.new 10 1 0 0) 16, by decide +kernel⟩⟩]),
    .mpReach (.ipv4Unicast (.v4 (.new 192 0 2 2)) none
      [⟨some 2, ⟨.clamped (.new 10 2 0 0) 16, by decide +kernel⟩⟩])], []⟩

/-- The second set is passed on, and lost. -/
theorem doubled_reach_lost :
    handleUpdateMessage none doubled .normal = some (.updateMsg doubled .normal) ∧
      ¬ doubled.Preserved := by
  refine ⟨by decide +kernel, fun preserved => ?_⟩
  have repeats : doubled.RepeatsRoutes := by decide +kernel
  exact (preserved_iff.mp preserved).2 repeats

end BgpUpdateMessage

end Erez.Daemon
