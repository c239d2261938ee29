import Erez.Daemon.Controller

/-! # RIB and FIB agree

The invariant is stated per NLRI: either the RIB has no path for it and the FIB
no entry, or the entry offers exactly the first nexthops of its paths. Every write
of the controller restores it at the NLRI it is for and touches no other key.
-/

namespace Erez.Daemon

open Erez.Lib

/-! ## Equal balancing -/

theorem nexthops_equalWeights (nexthops : List Nexthop) :
    (equalWeights nexthops).map (·.nexthop) = nexthops := by
  apply List.ext_getElem <;> simp [equalWeights]

/-- The weights depend on how many nexthops there are, not on which. -/
def equalShares (n : ℕ) : List UInt16 :=
  (List.range n).map fun i =>
    weightDenominator / n.toUInt16 + if i < (weightDenominator % n.toUInt16).toNat then 1 else 0

theorem weights_equalWeights (nexthops : List Nexthop) :
    (equalWeights nexthops).map (·.weight) = equalShares nexthops.length := by
  apply List.ext_getElem <;> simp [equalWeights, equalShares]

theorem equalShares_pos {n : ℕ} (positive : 0 < n) (few : n ≤ maxNexthops) {weight : UInt16}
    (h : weight ∈ equalShares n) : weight ≠ 0 := by
  simp only [maxNexthops] at few
  -- At most four nexthops, so the weights are four closed tables.
  interval_cases n
  all_goals
    obtain ⟨i, -, rfl⟩ := List.mem_map.mp h
    split <;> decide

theorem validWeights_equalShares {n : ℕ} (positive : 0 < n) (few : n ≤ maxNexthops) :
    ValidWeights (equalShares n) where
  total := by
    simp only [maxNexthops] at few
    interval_cases n <;> decide
  nonzero := fun _ => equalShares_pos positive few

theorem accepts_equalWeights {nexthops : List Nexthop} (nonempty : nexthops ≠ [])
    (few : nexthops.length ≤ maxNexthops) : FibEntry.Accepts (equalWeights nexthops) := by
  have size : (equalWeights nexthops).length = nexthops.length := by simp [equalWeights]
  have valid := validWeights_equalShares (List.length_pos_iff.mpr nonempty) few
  rw [← weights_equalWeights] at valid
  constructor
  case nonempty => simpa [equalWeights] using nonempty
  case few => exact size.trans_le few
  case sum =>
    have total := valid.total
    rw [List.map_map] at total
    rw [← UInt32.toNat_inj, toNat_weightSum (size.trans_le few), UInt16.toNat_toUInt32]
    exact total
  case nonzero =>
    intro weighted member
    exact valid.nonzero _ (List.mem_map_of_mem member)

/-- What the FIB should offer for an NLRI with these nexthops in the RIB. -/
structure Offers (entry : CFibEntry) (nlri : Nlri) (nexthops : List Nexthop) : Prop where
  matched : entry.matchedNlri = CNlri.ofIpNet nlri
  nexthops : ∀ addr, addr ∈ entry.active ↔
    addr ∈ (nexthops.take maxNexthops).map CIpv6Addr.ofIpAddr

theorem mem_active_toC {nlri : Nlri} {weighted : List WeightedNexthop}
    (accepted : FibEntry.Accepts weighted) {addr : CIpv6Addr} :
    addr ∈ ((FibEntry.pack weighted accepted).toC nlri).active ↔
      addr ∈ (weighted.map (·.nexthop)).map CIpv6Addr.ofIpAddr := by
  rw [FibEntry.active_toC, FibEntry.active_pack]
  exact (((FibEntry.sortNexthops_perm weighted).map _).map _).mem_iff

theorem offers_pack {nlri : Nlri} {nexthops : List Nexthop} {weighted : List WeightedNexthop}
    (accepted : FibEntry.Accepts weighted)
    (same : ∀ nh, nh ∈ weighted.map (·.nexthop) ↔ nh ∈ nexthops.take maxNexthops) :
    Offers ((FibEntry.pack weighted accepted).toC nlri) nlri nexthops where
  matched := rfl
  nexthops := by
    intro addr
    rw [mem_active_toC accepted, List.mem_map, List.mem_map]
    simp only [same]

/-- The entry the FIB should have, if any. -/
def Expected (entry : Option CFibEntry) (nlri : Nlri) (nexthops : List Nexthop) : Prop :=
  (nexthops = [] ∧ entry = none) ∨ ∃ e, nexthops ≠ [] ∧ entry = some e ∧ Offers e nlri nexthops

/-- Balancing either asks for no entry or builds the expected one. -/
theorem balanceEqually_cases (nlri : Nlri) (nexthops : List Nexthop) :
    (nexthops = [] ∧ balanceEqually nexthops = .ok none) ∨
      ∃ entry, nexthops ≠ [] ∧ balanceEqually nexthops = .ok (some entry) ∧
        Offers (entry.toC nlri) nlri nexthops := by
  by_cases empty : nexthops = []
  · subst empty
    exact .inl ⟨rfl, rfl⟩
  · have taken : nexthops.take maxNexthops ≠ [] := by
      cases nexthops with
      | nil => exact absurd rfl empty
      | cons nh rest => simp [maxNexthops]
    have accepted := accepts_equalWeights taken (List.length_take_le _ _)
    refine .inr ⟨FibEntry.pack _ accepted, empty, ?_, offers_pack accepted ?_⟩
    · simp only [balanceEqually, if_neg taken, FibEntry.new_of_accepts accepted]
      rfl
    · intro nh
      rw [nexthops_equalWeights]

namespace Controller

/-! ## One write -/

/-- The entry `e_fib` has for an NLRI. -/
def installed (c : Controller) (nlri : Nlri) : Option CFibEntry :=
  c.fib.get? nlri.node

/-- No warning was about an entry that `FibEntry::new` refused. -/
def Quiet (c : Controller) : Prop :=
  ∀ message, .invalidEntry message ∉ c.log

theorem quiet_settle {c : Controller} (quiet : c.Quiet) {res : Except FibError Fib}
    (valid : ∀ message, res ≠ .error (.invalidEntry message)) : (c.settle res).Quiet := by
  intro message member
  cases res with
  | ok fib => exact quiet message member
  | error e =>
      rcases List.mem_append.mp member with earlier | last
      · exact quiet message earlier
      · exact valid message (congrArg Except.error (List.mem_singleton.mp last).symm)

theorem delete_ne_invalid (fib : Fib) (nlri : Nlri) (message : String) :
    fib.delete nlri ≠ .error (.invalidEntry message) := by
  unfold Fib.delete
  split <;> simp

/-- A delete, failed or not, leaves no entry and touches no other key. -/
theorem get?_settle_delete (c : Controller) (nlri : Nlri) (key : List Bool) :
    (c.settle (c.fib.delete nlri)).fib.get? key =
      if key = nlri.node then none else c.fib.get? key := by
  unfold Fib.delete
  by_cases present : nlri.node ∈ c.fib
  · rw [if_pos present]
    exact FiniteMap.get?_erase c.fib key nlri.node
  · rw [if_neg present]
    change c.fib.get? key = _
    split
    · rename_i here
      rw [here]
      exact FiniteMap.get?_eq_none.mpr present
    · rfl

theorem get?_settle_insert (c : Controller) (nlri : Nlri) (entry : FibEntry) (key : List Bool) :
    (c.settle (.ok (c.fib.insert nlri entry))).fib.get? key =
      if key = nlri.node then some (entry.toC nlri) else c.fib.get? key :=
  FiniteMap.get?_insert c.fib key nlri.node _

/-- What every write does: it puts the expected entry under the NLRI's own key,
    and neither moves anything else nor takes the error branch of `FibEntry::new`. -/
structure Writes (c : Controller) (nlri : Nlri) (after : Controller) : Prop where
  rib : after.rib = c.rib
  expected : Expected (after.installed nlri) nlri (c.rib.nexthops nlri)
  frame : ∀ key, key ≠ nlri.node → after.fib.get? key = c.fib.get? key
  quiet : c.Quiet → after.Quiet

theorem writes_insert {c : Controller} {nlri : Nlri} {entry : FibEntry}
    (some : c.rib.nexthops nlri ≠ [])
    (offers : Offers (entry.toC nlri) nlri (c.rib.nexthops nlri)) :
    Writes c nlri (c.settle (.ok (c.fib.insert nlri entry))) where
  rib := rfl
  expected := by
    rw [installed, get?_settle_insert, if_pos rfl]
    exact .inr ⟨_, some, rfl, offers⟩
  frame := by
    intro key elsewhere
    rw [get?_settle_insert, if_neg elsewhere]
  quiet := fun quiet => quiet_settle quiet (by simp)

theorem writes_delete {c : Controller} {nlri : Nlri} (none : c.rib.nexthops nlri = []) :
    Writes c nlri (c.settle (c.fib.delete nlri)) where
  rib := rib_settle c _
  expected := by
    rw [installed, get?_settle_delete, if_pos rfl]
    exact .inl ⟨none, rfl⟩
  frame := by
    intro key elsewhere
    rw [get?_settle_delete, if_neg elsewhere]
  quiet := fun quiet => quiet_settle quiet (delete_ne_invalid c.fib nlri)

theorem writes_updateFib (c : Controller) (nlri : Nlri) : Writes c nlri (c.updateFib nlri) := by
  unfold updateFib
  rcases balanceEqually_cases nlri (c.rib.nexthops nlri) with
    ⟨none, balanced⟩ | ⟨entry, some, balanced, offers⟩
  · simp only [balanced]
    exact writes_delete none
  · simp only [balanced]
    exact writes_insert some offers

/-- A tick at an NLRI of the RIB. The write is the expected one where the stored
    weights are settled; the step never panics. -/
theorem steerNlri_ok {c : Controller} {nlri : Nlri} (snapshot : TcpRttSnapshot)
    (order : Nlri → IterOrder) (known : nlri ∈ c.rib.table)
    (settled : Descent.Settled (c.descent.stored nlri)
      ((c.rib.nexthops nlri).take maxNexthops)) :
    ∃ after, steerNlri snapshot order c nlri = .ok after ∧ Writes c nlri after ∧
      ∀ other, other ≠ nlri → after.descent.stored other = c.descent.stored other := by
  have some : c.rib.nexthops nlri ≠ [] := by
    simpa [Rib.nexthops] using Rib.mem_table_iff.mp known
  have taken : (c.rib.nexthops nlri).take maxNexthops ≠ [] := by
    simpa [maxNexthops] using some
  have few : ((c.rib.nexthops nlri).take maxNexthops).length ≤ maxNexthops :=
    List.length_take_le _ _
  have stepped := Descent.step_eq (order nlri) c.descent nlri snapshot taken few
  have accepted := Descent.accepts_advance (order nlri) (c.descent.stored nlri) nlri snapshot taken
    few
  have offers : Offers ((FibEntry.pack _ accepted).toC nlri) nlri (c.rib.nexthops nlri) :=
    offers_pack accepted fun nh => by
      rw [Descent.mem_weightedOf_advance, Descent.mem_reconcile_of_settled settled]
  let moved : Descent := ⟨c.descent.weights.insert nlri (Descent.advance (c.descent.stored nlri)
    nlri ((c.rib.nexthops nlri).take maxNexthops) snapshot)⟩
  have written := writes_insert (c := { c with descent := moved }) some offers
  refine ⟨settle { c with descent := moved } _, ?_,
    ⟨written.rib, written.expected, written.frame, written.quiet⟩, ?_⟩
  · simp only [steerNlri, stepped, FibEntry.new_of_accepts accepted, bind, Except.bind, moved]
  · intro other elsewhere
    rw [descent_settle]
    exact (Descent.stored_insert _ nlri other _).trans (if_neg elsewhere)

/-! ## Whole runs -/

/-- The RIB and FIB agree on the `known` NLRIs, the `stale` ones left aside. -/
structure Agrees (known stale : Set Nlri) (c : Controller) : Prop where
  table : ∀ nlri ∈ c.rib.table, nlri ∈ known
  expected : ∀ nlri ∈ known, nlri ∉ stale →
    Expected (c.installed nlri) nlri (c.rib.nexthops nlri)
  keys : ∀ key ∈ c.fib, ∃ nlri ∈ known, nlri.node = key
  quiet : c.Quiet

section Steps

variable {known : Set Nlri} {c : Controller}

theorem agrees_new (known : Set Nlri) : Agrees known ∅ new where
  table := fun nlri member => absurd member (AList.notMem_empty nlri)
  expected := fun _ _ _ => .inl ⟨rfl, rfl⟩
  keys := fun key member => absurd member (AList.notMem_empty key)
  quiet := fun _ => List.not_mem_nil

/-- A write restores the agreement at its NLRI, and only there. -/
theorem Agrees.write (distinct : known.InjOn IpNet.node) {nlri : Nlri} (member : nlri ∈ known)
    {after : Controller} (agrees : Agrees known {nlri} c) (written : Writes c nlri after) :
    Agrees known ∅ after where
  table := by
    rw [written.rib]
    exact agrees.table
  expected := by
    intro other otherKnown _
    rw [written.rib]
    by_cases here : other = nlri
    · subst here
      exact written.expected
    · have elsewhere : other.node ≠ nlri.node := fun same =>
        here (distinct otherKnown member same)
      rw [installed, written.frame _ elsewhere]
      exact agrees.expected other otherKnown here
  keys := by
    intro key present
    by_cases here : key = nlri.node
    · exact ⟨nlri, member, here.symm⟩
    · rw [← FiniteMap.isSome_get?, written.frame key here, FiniteMap.isSome_get?] at present
      exact agrees.keys key present
  quiet := written.quiet agrees.quiet

theorem Agrees.weaken (agrees : Agrees known ∅ c) (stale : Set Nlri) : Agrees known stale c :=
  ⟨agrees.table, fun nlri member _ => agrees.expected nlri member (Set.notMem_empty nlri),
    agrees.keys, agrees.quiet⟩

/-- A change to the RIB at one NLRI leaves the others as they were. -/
theorem Agrees.changeRib (agrees : Agrees known ∅ c) {nlri : Nlri} (member : nlri ∈ known)
    (rib : Rib) (frame : ∀ other, other ≠ nlri → rib.paths other = c.rib.paths other) :
    Agrees known {nlri} { c with rib } where
  table := by
    intro other present
    by_cases here : other = nlri
    · exact here ▸ member
    · refine agrees.table other (Rib.mem_table_iff.mpr ?_)
      rw [← frame other here]
      exact Rib.mem_table_iff.mp present
  expected := by
    intro other otherKnown fresh
    have same : rib.nexthops other = c.rib.nexthops other := by
      rw [Rib.nexthops, frame other fresh, Rib.nexthops]
    change Expected (c.installed other) other (rib.nexthops other)
    rw [same]
    exact agrees.expected other otherKnown (Set.notMem_empty other)
  keys := agrees.keys
  quiet := agrees.quiet

theorem Agrees.announce (distinct : known.InjOn IpNet.node) (agrees : Agrees known ∅ c)
    {route : Route} (member : route.nlri ∈ known) (nexthop : Nexthop) :
    Agrees known ∅ (c.announce nexthop route) := by
  have changed := agrees.changeRib member (c.rib.insert route nexthop) fun other elsewhere =>
    (Rib.paths_insert c.rib route nexthop other).trans (if_neg elsewhere)
  exact changed.write distinct member (writes_updateFib _ route.nlri)

theorem Agrees.withdraw (distinct : known.InjOn IpNet.node) (agrees : Agrees known ∅ c)
    {route : Route} (member : route.nlri ∈ known) : Agrees known ∅ (c.withdraw route) := by
  have changed := agrees.changeRib member (c.rib.remove route) fun other elsewhere =>
    (Rib.paths_remove c.rib route other).trans (if_neg elsewhere)
  exact changed.write distinct member (writes_updateFib _ route.nlri)

end Steps

end Controller

/-- The NLRIs an update is about. -/
def Update.nlris (update : Update) : List Nlri :=
  (update.announcements.flatMap fun a => a.routes.map (·.nlri)) ++ update.withdrawals.map (·.nlri)

def Event.nlris : Event → List Nlri
  | .update received => received.nlris
  | .tick _ => []

namespace Controller

variable {known : Set Nlri} {c : Controller}

theorem Agrees.applyUpdate (distinct : known.InjOn IpNet.node) (agrees : Agrees known ∅ c)
    {update : Update} (members : ∀ nlri ∈ update.nlris, nlri ∈ known) :
    Agrees known ∅ (c.applyUpdate update) := by
  have announced : ∀ a ∈ update.announcements, ∀ route ∈ a.routes, route.nlri ∈ known := by
    intro a ha route hr
    exact members _ (List.mem_append_left _
      (List.mem_flatMap.mpr ⟨a, ha, List.mem_map_of_mem hr⟩))
  have withdrawn : ∀ route ∈ update.withdrawals, route.nlri ∈ known := by
    intro route hr
    exact members _ (List.mem_append_right _ (List.mem_map_of_mem hr))
  unfold Controller.applyUpdate
  apply List.foldlRecOn
  · apply List.foldlRecOn
    · exact agrees
    · intro c agrees a ha
      apply List.foldlRecOn
      · exact agrees
      · intro c agrees route hr
        exact agrees.announce distinct (announced a ha route hr) a.nexthop
  · intro c agrees route hr
    exact agrees.withdraw distinct (withdrawn route hr)

/-- The weights stored for an NLRI are settled with what the RIB offers for it. -/
def SettledFor (c : Controller) (nlri : Nlri) : Prop :=
  Descent.Settled (c.descent.stored nlri) ((c.rib.nexthops nlri).take maxNexthops)

instance (c : Controller) (nlri : Nlri) : Decidable (c.SettledFor nlri) :=
  inferInstanceAs (Decidable (Descent.Settled _ _))

/-- The loop of `steer_fib`: each NLRI is visited once, so the weights of those to
    come are still what they were before the tick. -/
theorem Agrees.steer (distinct : known.InjOn IpNet.node) (snapshot : TcpRttSnapshot)
    (order : Nlri → IterOrder) {nlris : List Nlri} (once : nlris.Nodup)
    (present : ∀ nlri ∈ nlris, nlri ∈ c.rib.table) (settled : ∀ nlri ∈ nlris, c.SettledFor nlri)
    (agrees : Agrees known ∅ c) :
    ∃ after, nlris.foldlM (steerNlri snapshot order) c = .ok after ∧ Agrees known ∅ after := by
  induction nlris generalizing c with
  | nil => exact ⟨c, rfl, agrees⟩
  | cons nlri rest ih =>
      obtain ⟨absent, restOnce⟩ := List.nodup_cons.mp once
      obtain ⟨next, steered, written, others⟩ := steerNlri_ok snapshot order
        (present nlri List.mem_cons_self) (settled nlri List.mem_cons_self)
      have member := agrees.table nlri (present nlri List.mem_cons_self)
      have nextAgrees := (agrees.weaken {nlri}).write distinct member written
      have nextPresent : ∀ other ∈ rest, other ∈ next.rib.table := by
        rw [written.rib]
        exact fun other later => present other (List.mem_cons_of_mem nlri later)
      have nextSettled : ∀ other ∈ rest, next.SettledFor other := by
        intro other later
        have elsewhere : other ≠ nlri := fun same => absent (same ▸ later)
        rw [SettledFor, others other elsewhere, written.rib]
        exact settled other (List.mem_cons_of_mem nlri later)
      obtain ⟨after, later, afterAgrees⟩ := ih restOnce nextPresent nextSettled nextAgrees
      exact ⟨after, foldlM_cons_ok.mpr ⟨next, steered, later⟩, afterAgrees⟩

/-- A tick finds the stored weights of every NLRI it visits settled. -/
def SettledAt (c : Controller) : Event → Prop
  | .update _ => True
  | .tick tick => tick.snapshot.isSome → ∀ nlri ∈ c.rib.table.keys, c.SettledFor nlri

def Step (c : Controller) (event : Event) (after : Controller) : Prop :=
  c.step event = .ok after

theorem Agrees.step (distinct : known.InjOn IpNet.node) (agrees : Agrees known ∅ c) {event : Event}
    (members : ∀ nlri ∈ event.nlris, nlri ∈ known) (settled : c.SettledAt event) :
    ∃ after, c.step event = .ok after ∧ Agrees known ∅ after := by
  cases event with
  | update received => exact ⟨_, rfl, agrees.applyUpdate distinct members⟩
  | tick tick =>
      rw [Controller.step, steerFib]
      cases taken : tick.snapshot with
      | none => exact ⟨c, rfl, agrees⟩
      | some snapshot =>
          have perm := tick.nlris.iterate_perm c.rib.table.keys
          refine agrees.steer distinct snapshot tick.weights ?_ ?_ ?_
          · exact perm.nodup_iff.mpr c.rib.table.keys_nodup
          · exact fun nlri visited => Rib.mem_nlris.mp visited
          · exact fun nlri visited => settled (by simp [taken]) nlri (perm.mem_iff.mp visited)

/-- The agreement as the rest of the program relies on it. -/
structure InSync (c : Controller) : Prop where
  keys : ∀ key, key ∈ c.fib ↔ ∃ nlri ∈ c.rib.table, nlri.node = key
  entries : ∀ nlri ∈ c.rib.table, ∃ entry,
    c.installed nlri = some entry ∧ Offers entry nlri (c.rib.nexthops nlri)
  quiet : c.Quiet

theorem Agrees.inSync (agrees : Agrees known ∅ c) : InSync c := by
  have entries : ∀ nlri ∈ c.rib.table, ∃ entry,
      c.installed nlri = some entry ∧ Offers entry nlri (c.rib.nexthops nlri) := by
    intro nlri present
    have some : c.rib.nexthops nlri ≠ [] := by
      simpa [Rib.nexthops] using Rib.mem_table_iff.mp present
    rcases agrees.expected nlri (agrees.table nlri present) (Set.notMem_empty nlri) with
      ⟨none, -⟩ | ⟨entry, -, found, offers⟩
    · exact absurd none some
    · exact ⟨entry, found, offers⟩
  refine ⟨fun key => ⟨fun present => ?_, ?_⟩, entries, agrees.quiet⟩
  · obtain ⟨nlri, member, rfl⟩ := agrees.keys key present
    rcases agrees.expected nlri member (Set.notMem_empty nlri) with
      ⟨-, none⟩ | ⟨entry, some, -⟩
    · exact absurd present (FiniteMap.get?_eq_none.mp none)
    · exact ⟨nlri, Rib.mem_table_iff.mpr (by simpa [Rib.nexthops] using some), rfl⟩
  · rintro ⟨nlri, present, rfl⟩
    obtain ⟨entry, found, -⟩ := entries nlri present
    exact FiniteMap.mem_of_get? found

/-- The NLRIs a run is about. -/
def occurring (events : List Event) : Set Nlri :=
  {nlri | ∃ event ∈ events, nlri ∈ event.nlris}

/-- After every step of every run from the empty state, RIB and FIB are in sync,
    as long as no tick meets weights that `reconcile` wrongly keeps. -/
theorem inSync_along_run (events : List Event)
    (distinct : (occurring events).InjOn IpNet.node)
    (settled : Along Step SettledAt new events) :
    Along Step (fun c event => ∃ after, c.step event = .ok after ∧ InSync after) new events := by
  have known := settled.and_inputs (R := fun event => ∀ nlri ∈ event.nlris, nlri ∈ occurring events)
    fun event member nlri occurs => ⟨event, member, occurs⟩
  refine Along.imp (Agrees (occurring events) ∅) ?_ ?_ (agrees_new _) known
  · rintro c event after agrees ⟨settledHere, members⟩ stepped
    obtain ⟨next, same, nextAgrees⟩ := agrees.step distinct members settledHere
    obtain rfl : next = after := Except.ok.inj (same.symm.trans stepped)
    exact nextAgrees
  · rintro c event agrees ⟨settledHere, members⟩
    obtain ⟨next, stepped, nextAgrees⟩ := agrees.step distinct members settledHere
    exact ⟨next, stepped, nextAgrees.inSync⟩

section Moved

private def prefixM : Nlri := .v4 (.clamped (.new 10 1 0 0) 24)

private def firstHop : Nexthop := .v4 (.new 192 0 2 1)

private def secondHop : Nexthop := .v4 (.new 192 0 2 2)

private def silentTick : Event :=
  .tick ⟨some ⟨∅⟩, .stored, fun _ => .stored⟩

/-- Two paths for one prefix, each with a nexthop of its own, and a tick. -/
private def learnt : List Event :=
  [.update ⟨[⟨[⟨some 1, prefixM⟩], firstHop⟩, ⟨[⟨some 2, prefixM⟩], secondHop⟩], []⟩, silentTick]

/-- Later the second path moves to the first nexthop, and the next tick comes. -/
private def moved : List Event :=
  learnt ++ [.update ⟨[⟨[⟨some 2, prefixM⟩], firstHop⟩], []⟩]

theorem inSync_learnt :
    Along Step (fun c event => ∃ after, c.step event = .ok after ∧ InSync after) new learnt := by
  apply inSync_along_run
  · have only : ∀ nlri ∈ occurring learnt, nlri = prefixM := by
      rintro nlri ⟨event, member, occurs⟩
      rcases List.mem_pair.mp member with rfl | rfl
      · simpa [Event.nlris, Update.nlris] using occurs
      · cases occurs
    intro a ha b hb _
    rw [only a ha, only b hb]
  · refine ⟨trivial, fun c announced => ?_⟩
    obtain rfl := Except.ok.inj announced
    exact ⟨fun _ => by decide +kernel, fun _ _ => trivial⟩

/-- The tick hands the moved-away nexthop half of the traffic again. -/
theorem moved_out_of_sync :
    ¬ Along Step (fun c event => ∃ after, c.step event = .ok after ∧ InSync after) new
      (moved ++ [silentTick]) := by
  intro h
  have facts : ((moved ++ [silentTick]).foldlM step new).toOption.map (fun c =>
      (decide (prefixM ∈ c.rib.table), (c.installed prefixM).map CFibEntry.active,
        c.rib.nexthops prefixM)) =
      some (true, some [.ofIpAddr firstHop, .ofIpAddr secondHop], [firstHop, firstHop]) := by
    decide +kernel
  rw [List.foldlM_append] at facts
  cases ran : moved.foldlM step new with
  | error panic =>
      rw [ran] at facts
      cases facts
  | ok c =>
      obtain ⟨after, stepped, sync⟩ := h.at_last ran
      have last : [silentTick].foldlM step c = .ok after := by
        rw [List.foldlM_cons, stepped]
        rfl
      rw [ran] at facts
      change ([silentTick].foldlM step c).toOption.map _ = _ at facts
      rw [last] at facts
      obtain ⟨present, active, nexthops⟩ : prefixM ∈ after.rib.table ∧
          (after.installed prefixM).map CFibEntry.active =
            some [.ofIpAddr firstHop, .ofIpAddr secondHop] ∧
          after.rib.nexthops prefixM = [firstHop, firstHop] := by
        simpa [Except.toOption] using facts
      obtain ⟨entry, found, offers⟩ := sync.entries prefixM present
      rw [found] at active
      have stale := (offers.nexthops (.ofIpAddr secondHop)).mp (by
        rw [Option.some.inj active]
        exact List.mem_cons_of_mem _ List.mem_cons_self)
      rw [nexthops] at stale
      revert stale
      decide

end Moved

end Controller

end Erez.Daemon
