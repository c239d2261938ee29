import Erez.Speaker.Events

/-! # The treatment of an UPDATE with errors

The parsing errors of one message are folded into a treatment: each error calls for
one, and a later call replaces the treatment only if it is strictly worse. So the
treatment is the first of the worst.
-/

namespace Erez.Daemon.UpdateTreatment

/-- The order of the treatments, case by case. -/
def cmp : UpdateTreatment → UpdateTreatment → Ordering
  | normal, normal => .eq
  | normal, _ => .lt
  | attributeDiscard, normal => .gt
  | attributeDiscard, attributeDiscard => .eq
  | attributeDiscard, _ => .lt
  | treatAsWithdraw, normal => .gt
  | treatAsWithdraw, attributeDiscard => .gt
  | treatAsWithdraw, treatAsWithdraw => .eq
  | treatAsWithdraw, _ => .lt
  | resetAddressFamily _ _, normal => .gt
  | resetAddressFamily _ _, attributeDiscard => .gt
  | resetAddressFamily _ _, treatAsWithdraw => .gt
  | resetAddressFamily _ _, resetAddressFamily _ _ => .eq
  | resetAddressFamily _ _, sessionReset => .lt
  | sessionReset, sessionReset => .eq
  | sessionReset, _ => .gt

/-- How bad a treatment is. All resets of an address family are equally bad. -/
def severity : UpdateTreatment → ℕ
  | normal => 0
  | attributeDiscard => 1
  | treatAsWithdraw => 2
  | resetAddressFamily _ _ => 3
  | sessionReset => 4

theorem cmp_eq_compare (a b : UpdateTreatment) : a.cmp b = compare a.severity b.severity := by
  cases a <;> cases b <;> rfl

theorem cmp_lt_iff {a b : UpdateTreatment} : a.cmp b = .lt ↔ a.severity < b.severity := by
  rw [cmp_eq_compare, Nat.compare_eq_lt]

theorem severity_eq_zero {a : UpdateTreatment} : a.severity = 0 ↔ a = normal := by
  cases a <;> simp [severity]

/-- `if treatment < tmp { treatment = tmp }`. -/
def raise (treatment tmp : UpdateTreatment) : UpdateTreatment :=
  if treatment.cmp tmp = .lt then tmp else treatment

end Erez.Daemon.UpdateTreatment

namespace Erez.Speaker

open Daemon UpdateTreatment

/-! ## What an error calls for -/

def resetOf (addressType : AddressType) : UpdateTreatment :=
  .resetAddressFamily addressType.addressFamily addressType.subsequentAddressFamily

def MpReachParsingError.treatment : MpReachParsingError → UpdateTreatment
  | nomError => .sessionReset
  | undefinedAddressFamily | undefinedSubsequentAddressFamily => .sessionReset
  | ipAddrError addressType => resetOf addressType
  | labeledNextHopError addressType => resetOf addressType
  | ipv4UnicastAddressError => resetOf .ipv4Unicast
  | ipv4MulticastAddressError => resetOf .ipv4Multicast
  | ipv4NlriMplsLabelsAddressError => resetOf .ipv4NlriMplsLabels
  | ipv4MplsVpnUnicastAddressError => resetOf .ipv4MplsLabeledVpn
  | ipv6UnicastAddressError => resetOf .ipv6Unicast
  | ipv6NlriMplsLabelsAddressError => resetOf .ipv6NlriMplsLabels
  | ipv6MulticastAddressError => resetOf .ipv6Multicast
  | ipv6MplsVpnUnicastAddressError => resetOf .ipv6MplsLabeledVpn
  | l2EvpnAddressError => resetOf .l2VpnBgpEvpn
  | routeTargetMembershipAddressError => resetOf .routeTargetConstrains
  -- Errors of the BGP-LS routes reset the route targets.
  | bgpLsNlriParsingError => resetOf .routeTargetConstrains

def MpUnreachParsingError.treatment : MpUnreachParsingError → UpdateTreatment
  | nomError => .sessionReset
  | undefinedAddressFamily | undefinedSubsequentAddressFamily => .sessionReset
  | ipv4UnicastAddressError => resetOf .ipv4Unicast
  | ipv4MulticastAddressError => resetOf .ipv4Multicast
  | ipv4NlriMplsLabelsAddressError => resetOf .ipv4NlriMplsLabels
  | ipv4MplsVpnUnicastAddressError => resetOf .ipv4MplsLabeledVpn
  | ipv6UnicastAddressError => resetOf .ipv6Unicast
  | ipv6NlriMplsLabelsAddressError => resetOf .ipv6NlriMplsLabels
  | ipv6MulticastAddressError => resetOf .ipv6Multicast
  | ipv6MplsVpnUnicastAddressError => resetOf .ipv6MplsLabeledVpn
  | l2EvpnAddressError => resetOf .l2VpnBgpEvpn
  | routeTargetMembershipAddressError => resetOf .routeTargetConstrains
  | bgpLsError => resetOf .routeTargetConstrains

/-- The treatment that an error calls for; nothing where it is kept as it is. -/
def PathAttributeParsingError.treatment? : PathAttributeParsingError → Option UpdateTreatment
  | nomError => some .treatAsWithdraw
  | originError | asPathError | nextHopError | multiExitDiscriminatorError
  | localPreferenceError => some .treatAsWithdraw
  | atomicAggregateError | aggregatorError => some .attributeDiscard
  | communitiesError | extendedCommunitiesError | extendedCommunitiesErrorIpv6
  | largeCommunitiesError => some .treatAsWithdraw
  | originatorError => some .treatAsWithdraw
  | clusterListError => some .treatAsWithdraw
  | mpReachErrorError error => some error.treatment
  | mpUnreachErrorError error => some error.treatment
  | onlyToCustomerError => some .attributeDiscard
  | aigpError => some .attributeDiscard
  | unknownAttributeError => none
  | invalidPathAttribute error =>
      match error with
      | .invalidOptionalFlagValue _ | .invalidTransitiveFlagValue _ => some .treatAsWithdraw
      | .invalidPartialFlagValue _ => none
  | bgpLsError => some .attributeDiscard
  | segmentIdentifierParsingError => some .attributeDiscard

/-- One round of the loop. -/
def treatError (treatment : UpdateTreatment) (error : PathAttributeParsingError) :
    UpdateTreatment :=
  match error.treatment? with
  | some tmp => treatment.raise tmp
  | none => treatment

/-- `update_treatment`. -/
def updateTreatment (errors : List PathAttributeParsingError) : UpdateTreatment :=
  errors.foldl treatError .normal

/-! ## The first of the worst -/

/-- No error calls for the normal treatment. -/
theorem PathAttributeParsingError.treatment?_ne_normal (error : PathAttributeParsingError) :
    error.treatment? ≠ some .normal := by
  cases error with
  | mpReachErrorError error => cases error <;> simp [treatment?, MpReachParsingError.treatment, resetOf]
  | mpUnreachErrorError error =>
      cases error <;> simp [treatment?, MpUnreachParsingError.treatment, resetOf]
  | invalidPathAttribute error => cases error <;> simp [treatment?]
  | _ => simp [treatment?]

theorem updateTreatment_concat (errors : List PathAttributeParsingError)
    (error : PathAttributeParsingError) :
    updateTreatment (errors ++ [error]) = treatError (updateTreatment errors) error := by
  rw [updateTreatment, List.foldl_concat, updateTreatment]

/-- The first of the worst treatments that the errors call for, or the normal one if
    none calls for any. -/
theorem updateTreatment_eq_argmax (errors : List PathAttributeParsingError) :
    updateTreatment errors =
      ((errors.filterMap PathAttributeParsingError.treatment?).argmax severity).getD .normal := by
  induction errors using List.reverseRecOn with
  | nil => rfl
  | append_singleton errors error ih =>
      rw [updateTreatment_concat, treatError, List.filterMap_append]
      cases called : error.treatment? with
      | none =>
          simp only [List.filterMap_cons, called, List.filterMap_nil, List.append_nil]
          exact ih
      | some tmp =>
          have worse : tmp ≠ .normal := fun same =>
            error.treatment?_ne_normal (same ▸ called)
          simp only [List.filterMap_cons, called, List.filterMap_nil, List.argmax_concat]
          rw [raise, ih]
          cases worst : (errors.filterMap PathAttributeParsingError.treatment?).argmax severity with
          | none =>
              have raised : UpdateTreatment.normal.cmp tmp = .lt := by
                rw [cmp_lt_iff]
                exact Nat.pos_of_ne_zero fun zero => worse (severity_eq_zero.mp zero)
              simp only [Option.getD_none, raised, if_true, Option.getD_some]
          | some before =>
              simp only [Option.getD_some, cmp_lt_iff]
              split <;> rfl

/-- No error calls for worse. -/
theorem le_updateTreatment {errors : List PathAttributeParsingError}
    {error : PathAttributeParsingError} (member : error ∈ errors) {treatment : UpdateTreatment}
    (called : error.treatment? = some treatment) :
    treatment.severity ≤ (updateTreatment errors).severity := by
  have calls : treatment ∈ errors.filterMap PathAttributeParsingError.treatment? :=
    List.mem_filterMap.mpr ⟨error, member, called⟩
  rw [updateTreatment_eq_argmax]
  cases worst : (errors.filterMap PathAttributeParsingError.treatment?).argmax severity with
  | none =>
      rw [List.argmax_eq_none.mp worst] at calls
      cases calls
  | some worstOf => exact List.le_of_mem_argmax calls worst

private theorem foldl_treatError_of_le {treatment : UpdateTreatment}
    {errors : List PathAttributeParsingError}
    (milder : ∀ error ∈ errors, ∀ called ∈ error.treatment?, called.severity ≤ treatment.severity) :
    errors.foldl treatError treatment = treatment := by
  induction errors with
  | nil => rfl
  | cons error errors ih =>
      have kept : treatError treatment error = treatment := by
        rw [treatError]
        cases called : error.treatment? with
        | none => rfl
        | some tmp =>
            have le := milder error List.mem_cons_self tmp called
            exact if_neg fun worse => absurd (cmp_lt_iff.mp worse) (not_lt.mpr le)
      rw [List.foldl_cons, kept]
      exact ih fun other member => milder other (List.mem_cons_of_mem error member)

/-- The error whose call stands: worse than all before it, and no milder than any
    behind it. -/
structure Decisive (errors : List PathAttributeParsingError) (treatment : UpdateTreatment)
    (before : List PathAttributeParsingError) (error : PathAttributeParsingError)
    (after : List PathAttributeParsingError) : Prop where
  split : errors = before ++ error :: after
  called : error.treatment? = some treatment
  worse : ∀ other ∈ before, ∀ tmp ∈ other.treatment?, tmp.severity < treatment.severity
  worst : ∀ other ∈ after, ∀ tmp ∈ other.treatment?, tmp.severity ≤ treatment.severity

theorem updateTreatment_eq_normal {errors : List PathAttributeParsingError}
    (h : updateTreatment errors = .normal) :
    ∀ error ∈ errors, error.treatment? = none := by
  intro error member
  refine Option.eq_none_iff_forall_ne_some.mpr fun tmp called => ?_
  have le := le_updateTreatment member called
  rw [h] at le
  obtain rfl := severity_eq_zero.mp (Nat.le_zero.mp le)
  exact error.treatment?_ne_normal called

private theorem updateTreatment_of_decisive {errors before after : List PathAttributeParsingError}
    {error : PathAttributeParsingError} {treatment : UpdateTreatment}
    (decisive : Decisive errors treatment before error after) :
    updateTreatment errors = treatment := by
  obtain ⟨rfl, called, worse, worst⟩ := decisive
  have milder : (updateTreatment before).severity < treatment.severity := by
    rw [updateTreatment_eq_argmax]
    cases found : (before.filterMap PathAttributeParsingError.treatment?).argmax severity with
    | none =>
        refine Nat.pos_of_ne_zero fun zero => ?_
        exact error.treatment?_ne_normal (severity_eq_zero.mp zero ▸ called)
    | some tmp =>
        obtain ⟨other, member, calledFor⟩ := List.mem_filterMap.mp (List.argmax_mem found)
        exact worse other member tmp calledFor
  have raised : treatError (updateTreatment before) error = treatment := by
    rw [treatError, called]
    exact if_pos (cmp_lt_iff.mpr milder)
  rw [updateTreatment, List.foldl_append, List.foldl_cons]
  change after.foldl treatError (treatError (updateTreatment before) error) = treatment
  rw [raised]
  exact foldl_treatError_of_le worst

/-- The treatment of a message is normal exactly if no error calls for another one;
    else it is what the first of the worst errors calls for. -/
theorem updateTreatment_eq_iff (errors : List PathAttributeParsingError)
    (treatment : UpdateTreatment) :
    updateTreatment errors = treatment ↔
      (treatment = .normal ∧ ∀ error ∈ errors, error.treatment? = none) ∨
        ∃ before error after, Decisive errors treatment before error after := by
  constructor
  · rintro rfl
    induction errors using List.reverseRecOn with
    | nil => exact .inl ⟨rfl, fun error member => by cases member⟩
    | append_singleton errors error ih =>
        rw [updateTreatment_concat]
        by_cases raised : ∃ tmp, error.treatment? = some tmp ∧
            (updateTreatment errors).severity < tmp.severity
        · obtain ⟨tmp, called, worse⟩ := raised
          refine .inr ⟨errors, error, [], ?_⟩
          have stands : treatError (updateTreatment errors) error = tmp := by
            rw [treatError, called]
            exact if_pos (cmp_lt_iff.mpr worse)
          rw [stands]
          refine ⟨rfl, called, fun other member mild calledFor => ?_, fun other member => ?_⟩
          · exact (le_updateTreatment member calledFor).trans_lt worse
          · cases member
        · have le : ∀ tmp ∈ error.treatment?, tmp.severity ≤ (updateTreatment errors).severity :=
            fun tmp called => not_lt.mp fun worse => raised ⟨tmp, called, worse⟩
          have kept : [error].foldl treatError (updateTreatment errors) = updateTreatment errors :=
            foldl_treatError_of_le (by simpa using le)
          rw [List.foldl_cons, List.foldl_nil] at kept
          rw [kept]
          rcases ih with ⟨normal, silent⟩ | ⟨before, first, after, split, called, worse, worst⟩
          · refine .inl ⟨normal, fun other member => ?_⟩
            rcases List.mem_append.mp member with earlier | last
            · exact silent other earlier
            · obtain rfl := List.mem_singleton.mp last
              refine Option.eq_none_iff_forall_ne_some.mpr fun tmp called => ?_
              have zero : tmp.severity ≤ UpdateTreatment.normal.severity := normal ▸ le tmp called
              have same : tmp = .normal := severity_eq_zero.mp (Nat.le_zero.mp zero)
              exact other.treatment?_ne_normal (same ▸ called)
          · refine .inr ⟨before, first, after ++ [error], by rw [split]; simp, called, worse,
              fun other member => ?_⟩
            rcases List.mem_append.mp member with later | last
            · exact worst other later
            · obtain rfl := List.mem_singleton.mp last
              exact le
  · rintro (⟨rfl, silent⟩ | ⟨before, error, after, decisive⟩)
    · refine foldl_treatError_of_le fun error member tmp called => ?_
      rw [silent error member] at called
      cases called
    · exact updateTreatment_of_decisive decisive

end Erez.Speaker
