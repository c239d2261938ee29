import Erez.Daemon.DescentRuns

/-! # The controller

Two writers share the steering FIB. Every BGP update rebalances the prefixes it
touches equally; every steering tick rewrites all prefixes of the RIB with the
weights that gradient descent came to. The kernel map is a trie of raw entries
under the key's significant bits: updates and deletes of present keys succeed,
and deleting an absent key is an error that is only logged.
-/

namespace Erez.Daemon

open Erez.Lib

/-- Equal weights; the remainder is spread across the nexthops, first to last. -/
def equalWeights (nexthops : List Nexthop) : List WeightedNexthop :=
  let base := weightDenominator / nexthops.length.toUInt16
  let remainder := (weightDenominator % nexthops.length.toUInt16).toNat
  nexthops.mapIdx fun i nexthop => ⟨nexthop, base + if i < remainder then 1 else 0⟩

def balanceEqually (nexthops : List Nexthop) : Except String (Option FibEntry) := do
  let nexthops := nexthops.take maxNexthops
  if nexthops = [] then
    .ok none
  else
    let entry ← FibEntry.new (equalWeights nexthops)
    .ok (some entry)

structure Controller where
  fib : Fib
  rib : Rib
  descent : Descent
  /-- The warnings written so far. -/
  log : List FibError

/-- What a steering tick meets: the snapshot, unless taking it failed, and the
    orders in which the hash maps iterate. -/
structure Tick where
  snapshot : Option TcpRttSnapshot
  nlris : IterOrder
  weights : Nlri → IterOrder

inductive Event where
  | update (update : Update)
  | tick (tick : Tick)

namespace Controller

def new : Controller where
  fib := ∅
  rib := .default
  descent := .default
  log := []

/-- Keep the new map, or warn and go on with the old one. -/
def settle (c : Controller) (res : Except FibError Fib) : Controller :=
  match res with
  | .ok fib => { c with fib }
  | .error e => { c with log := c.log ++ [e] }

@[simp]
theorem rib_settle (c : Controller) (res : Except FibError Fib) : (c.settle res).rib = c.rib := by
  cases res <;> rfl

@[simp]
theorem descent_settle (c : Controller) (res : Except FibError Fib) :
    (c.settle res).descent = c.descent := by
  cases res <;> rfl

def updateFib (c : Controller) (nlri : Nlri) : Controller :=
  c.settle <|
    match balanceEqually (c.rib.nexthops nlri) with
    | .ok (some entry) => .ok (c.fib.insert nlri entry)
    | .ok none => c.fib.delete nlri
    | .error message => .error (.invalidEntry message)

/-- One round of the loop in `steer_fib`. -/
def steerNlri (snapshot : TcpRttSnapshot) (order : Nlri → IterOrder) (c : Controller)
    (nlri : Nlri) : Except Descent.Panic Controller := do
  let nexthops := (c.rib.nexthops nlri).take maxNexthops
  let (stepped, descent) ← c.descent.step (order nlri) nlri nexthops snapshot
  let res :=
    match stepped with
    | some weighted =>
        match FibEntry.new weighted with
        | .ok entry => .ok (c.fib.insert nlri entry)
        | .error message => .error (.invalidEntry message)
    | none => c.fib.delete nlri
  .ok (settle { c with descent } res)

def steerFib (c : Controller) (tick : Tick) : Except Descent.Panic Controller :=
  match tick.snapshot with
  | none => .ok c
  | some snapshot => (c.rib.nlris tick.nlris).foldlM (steerNlri snapshot tick.weights) c

def announce (nexthop : Nexthop) (c : Controller) (route : Route) : Controller :=
  updateFib { c with rib := c.rib.insert route nexthop } route.nlri

def withdraw (c : Controller) (route : Route) : Controller :=
  updateFib { c with rib := c.rib.remove route } route.nlri

/-- The routes of an update, learnt first and withdrawn last. -/
def applyUpdate (c : Controller) (update : Update) : Controller :=
  let c := update.announcements.foldl (fun c a => a.routes.foldl (announce a.nexthop) c) c
  update.withdrawals.foldl withdraw c

def step (c : Controller) : Event → Except Descent.Panic Controller
  | .update update => .ok (c.applyUpdate update)
  | .tick tick => c.steerFib tick

/-! ## Ticks never panic, and leave the table alone -/

/-- One round of the loop always returns, and only writes to the FIB. -/
theorem steerNlri_total (snapshot : TcpRttSnapshot) (order : Nlri → IterOrder) (c : Controller)
    (nlri : Nlri) : ∃ after, steerNlri snapshot order c nlri = .ok after ∧ after.rib = c.rib := by
  obtain ⟨stepped, descent, returned⟩ : ∃ stepped descent, c.descent.step (order nlri) nlri
      ((c.rib.nexthops nlri).take maxNexthops) snapshot = .ok (stepped, descent) := by
    by_cases none : (c.rib.nexthops nlri).take maxNexthops = []
    · rw [none]
      exact ⟨_, _, rfl⟩
    · exact ⟨_, _, Descent.step_eq _ _ _ _ none (List.length_take_le _ _)⟩
  simp only [steerNlri, returned, bind, Except.bind]
  exact ⟨_, rfl, rib_settle _ _⟩

theorem steerFib_total (c : Controller) (tick : Tick) :
    ∃ after, c.steerFib tick = .ok after ∧ after.rib = c.rib := by
  unfold steerFib
  cases tick.snapshot with
  | none => exact ⟨c, rfl, rfl⟩
  | some snapshot =>
      simp only
      generalize c.rib.nlris tick.nlris = nlris
      induction nlris generalizing c with
      | nil => exact ⟨c, rfl, rfl⟩
      | cons nlri rest ih =>
          obtain ⟨next, steered, same⟩ := steerNlri_total snapshot tick.weights c nlri
          obtain ⟨after, later, kept⟩ := ih next
          exact ⟨after, foldlM_cons_ok.mpr ⟨next, steered, later⟩, kept.trans same⟩

theorem step_total (c : Controller) (event : Event) : ∃ after, c.step event = .ok after := by
  cases event with
  | update received => exact ⟨_, rfl⟩
  | tick tick =>
      obtain ⟨after, steered, -⟩ := c.steerFib_total tick
      exact ⟨after, steered⟩

end Controller

end Erez.Daemon
