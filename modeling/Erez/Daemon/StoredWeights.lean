import Erez.Daemon.RouteEvents

/-! # Which prefixes have stored weights

`Descent::step` drops the weights of a prefix that it is called for without
nexthops. The controller only calls it for the prefixes of the RIB, and these
always have nexthops, so the stored weights only ever grow: after a run they are
those of every prefix that was in the RIB at some successful tick.
-/

namespace Erez.Daemon

open Erez.Lib

/-- A tick whose snapshot could be taken. -/
def Event.steers : Event → Bool
  | .update _ => false
  | .tick met => met.snapshot.isSome

namespace Controller

/-! ## What one step does to the stored weights -/

theorem descent_applyUpdate (c : Controller) (update : Update) :
    (c.applyUpdate update).descent = c.descent := by
  rw [applyUpdate_eq]
  apply foldl_keeps descent
  intro c op
  cases op with
  | put route nexthop => exact descent_settle _ _
  | delete route => exact descent_settle _ _

/-- One round of the loop stores the weights of its prefix and no others. -/
theorem mem_weights_steerNlri {snapshot : TcpRttSnapshot} {order : Nlri → IterOrder}
    {c after : Controller} {nlri : Nlri} (steered : steerNlri snapshot order c nlri = .ok after)
    (present : nlri ∈ c.rib.table) (other : Nlri) :
    other ∈ after.descent.weights ↔ other = nlri ∨ other ∈ c.descent.weights := by
  have offered : (c.rib.nexthops nlri).take maxNexthops ≠ [] := by
    simpa [Rib.nexthops, maxNexthops] using Rib.mem_table_iff.mp present
  have stepped := Descent.step_eq (order nlri) c.descent nlri snapshot offered
    (List.length_take_le _ _)
  simp only [steerNlri, stepped, bind, Except.bind] at steered
  obtain rfl := Except.ok.inj steered
  rw [descent_settle]
  exact FiniteMap.mem_insert

private theorem mem_weights_steer {snapshot : TcpRttSnapshot} {order : Nlri → IterOrder}
    {c after : Controller} {nlris : List Nlri}
    (steered : nlris.foldlM (steerNlri snapshot order) c = .ok after)
    (present : ∀ nlri ∈ nlris, nlri ∈ c.rib.table) (other : Nlri) :
    other ∈ after.descent.weights ↔ other ∈ nlris ∨ other ∈ c.descent.weights := by
  induction nlris generalizing c with
  | nil =>
      obtain rfl := Except.ok.inj steered
      simp
  | cons nlri rest ih =>
      obtain ⟨next, first, later⟩ := foldlM_cons_ok.mp steered
      obtain ⟨next', first', sameRib⟩ := steerNlri_total snapshot order c nlri
      obtain rfl : next' = next := Except.ok.inj (first'.symm.trans first)
      have here := mem_weights_steerNlri first (present nlri List.mem_cons_self) other
      rw [ih later (fun n member => sameRib ▸ present n (List.mem_cons_of_mem _ member)), here,
        List.mem_cons]
      tauto

/-- A successful tick adds the prefixes of the RIB; nothing else changes the set. -/
theorem mem_weights_step {c after : Controller} {event : Event} (stepped : c.step event = .ok after)
    (other : Nlri) :
    other ∈ after.descent.weights ↔
      (event.steers ∧ other ∈ c.rib.table) ∨ other ∈ c.descent.weights := by
  cases event with
  | update received =>
      obtain rfl := Except.ok.inj stepped
      simp [descent_applyUpdate, Event.steers]
  | tick tick =>
      simp only [step, steerFib] at stepped
      cases taken : tick.snapshot with
      | none =>
          rw [taken] at stepped
          obtain rfl := Except.ok.inj stepped
          simp [Event.steers, taken]
      | some snapshot =>
          rw [taken] at stepped
          have keys := mem_weights_steer stepped (fun nlri => Rib.mem_nlris.mp) other
          simpa [Event.steers, taken, Rib.mem_nlris] using keys

theorem rib_of_steers {c after : Controller} {event : Event} (stepped : c.step event = .ok after)
    (steers : event.steers = true) : after.rib = c.rib := by
  cases event with
  | update received => cases steers
  | tick met => exact rib_step stepped

/-! ## The successful ticks of a run -/

/-- The states before and after each successful tick of a run. -/
def ticksOf (c : Controller) : List Event → List (Controller × Controller)
  | [] => []
  | event :: rest =>
      match c.step event with
      | .error _ => []
      | .ok after => if event.steers then (c, after) :: ticksOf after rest else ticksOf after rest

/-- Weights are stored for the prefixes of the RIB and for no others. -/
def StoresLive (c : Controller) : Prop :=
  ∀ nlri, nlri ∈ c.descent.weights ↔ nlri ∈ c.rib.table

/-- The prefixes of the RIB at one tick are still there at another. -/
def Retains (earlier later : Controller) : Prop :=
  ∀ nlri ∈ earlier.rib.table, nlri ∈ later.rib.table

/-- A prefix that was not in the RIB at the tick before enters with equal weights. -/
def StartsUniform (earlier later : Controller) : Prop :=
  ∀ nlri ∈ later.rib.table, nlri ∉ earlier.rib.table →
    Descent.reconcile (later.descent.stored nlri) ((later.rib.nexthops nlri).take maxNexthops) =
      Descent.uniform ((later.rib.nexthops nlri).take maxNexthops)

/-- Only the prefixes that have weights already and those of earlier ticks can be
    left over at a tick. -/
private theorem storesLive_iff (c : Controller) (events : List Event) :
    (∀ around ∈ c.ticksOf events, StoresLive around.2) ↔
      (∀ around ∈ c.ticksOf events, ∀ nlri ∈ c.descent.weights, nlri ∈ around.1.rib.table) ∧
        (c.ticksOf events).Pairwise fun earlier later => Retains earlier.1 later.1 := by
  induction events generalizing c with
  | nil => simp [ticksOf]
  | cons event rest ih =>
      obtain ⟨after, stepped⟩ := c.step_total event
      have keys := mem_weights_step stepped
      simp only [ticksOf, stepped]
      by_cases steers : event.steers = true
      · have sameRib := rib_of_steers stepped steers
        simp only [steers, true_and, if_true] at keys ⊢
        rw [List.forall_mem_cons, List.forall_mem_cons, List.pairwise_cons, ih after]
        have live : StoresLive after ↔ ∀ nlri ∈ c.descent.weights, nlri ∈ c.rib.table := by
          simp only [StoresLive, keys, sameRib]
          grind
        rw [live]
        simp only [keys, Retains]
        grind
      · have sameKeys : ∀ nlri, nlri ∈ after.descent.weights ↔ nlri ∈ c.descent.weights := by
          simpa [steers] using keys
        simpa only [steers, Bool.false_eq_true, if_false, sameKeys] using ih after

/-- Between ticks nothing touches the weights. -/
private theorem descent_between (c : Controller) (events : List Event) :
    (∀ first ∈ (c.ticksOf events).head?, ∀ nlri,
      nlri ∈ first.1.descent.weights ↔ nlri ∈ c.descent.weights) ∧
    (c.ticksOf events).IsChain fun earlier later => ∀ nlri,
      nlri ∈ later.1.descent.weights ↔ nlri ∈ earlier.2.descent.weights := by
  induction events generalizing c with
  | nil => simp [ticksOf]
  | cons event rest ih =>
      obtain ⟨after, stepped⟩ := c.step_total event
      obtain ⟨first, later⟩ := ih after
      simp only [ticksOf, stepped]
      by_cases steers : event.steers = true
      · simp only [steers, if_true]
        exact ⟨by simp, List.isChain_cons.mpr ⟨first, later⟩⟩
      · have sameKeys : ∀ nlri, nlri ∈ after.descent.weights ↔ nlri ∈ c.descent.weights := by
          simpa [steers] using mem_weights_step stepped
        simp only [steers, Bool.false_eq_true, if_false]
        exact ⟨fun around head nlri => (first around head nlri).trans (sameKeys nlri), later⟩

/-- A prefix without stored weights starts from equal ones. -/
theorem reconcile_of_unstored {descent : Descent} {nlri : Nlri} (unstored : nlri ∉ descent.weights)
    {nexthops : List Nexthop} (nonempty : nexthops ≠ []) :
    Descent.reconcile (descent.stored nlri) nexthops = Descent.uniform nexthops := by
  obtain ⟨nh, member⟩ := List.exists_mem_of_ne_nil nexthops nonempty
  rw [Descent.stored, FiniteMap.get?_eq_none.mpr unstored]
  exact if_pos (.inr ⟨nh, member, AList.notMem_empty nh⟩)

/-- Over a run from the empty state: after every successful tick the stored weights
    are those of the prefixes in the RIB, and a prefix that was out of the RIB at
    the tick before starts from equal weights. -/
def KeepsLiveWeights (events : List Event) : Prop :=
  (∀ around ∈ new.ticksOf events, StoresLive around.2) ∧
    (new.ticksOf events).IsChain fun earlier later => StartsUniform earlier.2 later.1

/-- A run keeps weights for live prefixes only as long as no prefix is in the RIB
    at one successful tick and out of it at a later one. -/
theorem keepsLiveWeights_iff (events : List Event) :
    KeepsLiveWeights events ↔
      (new.ticksOf events).Pairwise fun earlier later => Retains earlier.1 later.1 := by
  have live := storesLive_iff new events
  constructor
  · intro ⟨stored, _⟩
    exact (live.mp stored).2
  · intro retained
    have stored := live.mpr ⟨fun _ _ nlri member => absurd member (AList.notMem_empty nlri), retained⟩
    refine ⟨stored, (descent_between new events).2.imp_of_mem_imp ?_⟩
    intro earlier later before _ same nlri present absent
    have unstored : nlri ∉ later.1.descent.weights := by
      rw [same, stored earlier before]
      exact absent
    apply reconcile_of_unstored unstored
    simpa [Rib.nexthops, maxNexthops] using Rib.mem_table_iff.mp present

section Withdrawn

private def churned : Route where
  pathId := some 1
  nlri := .v4 (.clamped (.new 10 41 0 0) 24)

private def unmeasuredTick : Event :=
  .tick ⟨some ⟨∅⟩, .stored, fun _ => .stored⟩

/-- A prefix comes, is steered, and goes before the next tick. -/
def churn : List Event :=
  [.update ⟨[⟨[churned], .v4 (.new 192 0 2 1)⟩], []⟩, unmeasuredTick, .update ⟨[], [churned]⟩,
    unmeasuredTick]

/-- Its weights are still stored after the tick that no longer finds it. -/
theorem churn_leaves_weights : ¬ KeepsLiveWeights churn := by
  intro ⟨stored, _⟩
  have leftover : ∃ around ∈ new.ticksOf churn,
      churned.nlri ∈ around.2.descent.weights ∧ churned.nlri ∉ around.2.rib.table := by
    decide +kernel
  obtain ⟨around, member, kept, gone⟩ := leftover
  exact gone ((stored around member churned.nlri).mp kept)

end Withdrawn

end Controller

end Erez.Daemon
