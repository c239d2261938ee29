import Erez.Daemon.FibEntry
import Erez.Daemon.Rib
import Erez.Lib.SimplexProjection

/-! # Steering weights by projected gradient descent

The `descent` module of the controller, over exact rationals in place of `f64`.
Integer arithmetic on `u16` is checked: a debug build panics on overflow, and so
does the model, so every result that a step returns normally also says that no
addition, subtraction or increment overflowed.
-/

namespace Erez.Daemon

open Erez.Lib

/-- A summarised view of the samples of one NLRI and nexthop. -/
structure TcpRttWindow where
  samples : ℕ
  avgSrttUs : UInt64
  maxSrttUs : UInt32
  minRttMin : UInt32
  deriving DecidableEq

structure TcpRttSnapshot where
  windows : FiniteMap Nlri (FiniteMap Nexthop TcpRttWindow)

namespace Descent

/-- Step size of the gradient update. -/
def learningRate : ℚ := 1 / 20000000

/-- Minimum fraction of traffic assigned to any nexthop. -/
def minimumWeight : ℚ := 1 / 100

abbrev Weights := FiniteMap Nexthop ℚ

/-- The cost of a nexthop: its latency, plus its latency above the observed minimum. -/
def gradient (win : TcpRttWindow) : ℚ :=
  let latency : ℚ := win.avgSrttUs.toNat
  let congestion : ℚ := (win.avgSrttUs.toNat - win.minRttMin.toNat : ℕ)
  latency + congestion

/-- `reconcile`'s test for a different set of nexthops. It compares the number of
    weights with the number of paths, which may repeat a nexthop. -/
def Changed (weights : Weights) (nexthops : List Nexthop) : Prop :=
  weights.keys.length ≠ nexthops.length ∨ ∃ nh ∈ nexthops, nh ∉ weights

instance (weights : Weights) (nexthops : List Nexthop) : Decidable (Changed weights nexthops) :=
  inferInstanceAs (Decidable (_ ∨ _))

/-- Equal weights, inserted path by path. -/
def uniform (nexthops : List Nexthop) : Weights :=
  nexthops.foldl (fun weights nh => weights.insert nh (1 / nexthops.length)) ∅

def reconcile (weights : Weights) (nexthops : List Nexthop) : Weights :=
  if Changed weights nexthops then uniform nexthops else weights

/-- The RTT window of a nexthop, if the snapshot has one. -/
def window? (snapshot : TcpRttSnapshot) (nlri : Nlri) (nh : Nexthop) : Option TcpRttWindow :=
  (snapshot.windows.get? nlri).bind (·.get? nh)

/-- One coordinate of the gradient update. A nexthop without RTT data is relegated
    to the floor weight. -/
def nudge (g : Option ℚ) (w : ℚ) : ℚ :=
  match g with
  | some g => w - learningRate * g
  | none => minimumWeight

/-- The loop over the nexthops and their gradients. -/
def descend (weights : Weights) (steps : List (Nexthop × Option ℚ)) : Weights :=
  steps.foldl
    (fun weights step =>
      match weights.get? step.1 with
      | none => weights
      | some w => weights.insert step.1 (nudge step.2 w))
    weights

/-- The threshold search: the last candidate that leaves its value positive. -/
def scanTau (r : ℚ) : List ℚ → (k : ℕ) → (cumsum tau : ℚ) → ℚ
  | [], _, _, tau => tau
  | v :: rest, k, cumsum, tau =>
      let cumsum := cumsum + v
      let candidate := (cumsum - r) / ((k : ℚ) + 1)
      scanTau r rest (k + 1) cumsum (if v - candidate > 0 then candidate else tau)

/-- The weights above the floor, largest first. -/
def excess (weights : Weights) : List ℚ :=
  (weights.values.map (· - minimumWeight)).insertionSort (· ≥ ·)

def tau (weights : Weights) : ℚ :=
  scanTau (1 - weights.keys.length * minimumWeight) (excess weights) 0 0 0

def project (weights : Weights) : Weights :=
  weights.mapValues fun w => max (w - minimumWeight - tau weights) 0 + minimumWeight

/-- What makes a debug build abort. -/
inductive Panic where
  | addOverflow
  | subtractOverflow
  | debugAssertion
  deriving DecidableEq, Repr

def checkedAdd (a b : UInt16) : Except Panic UInt16 :=
  if a.toNat + b.toNat < 65536 then .ok (a + b) else .error .addOverflow

def checkedSub (a b : UInt16) : Except Panic UInt16 :=
  if b.toNat ≤ a.toNat then .ok (a - b) else .error .subtractOverflow

/-- `as u16`: truncates towards zero and saturates. -/
def asU16 (x : ℚ) : UInt16 :=
  UInt16.ofNat (min 65535 ⌊x⌋.toNat)

/-- A nexthop with its weight so far and the fraction it lost to truncation. -/
structure Share where
  nexthop : Nexthop
  weight : UInt16
  remainder : ℚ

def Share.ofWeight (nexthop : Nexthop) (w : ℚ) : Share :=
  let scaled := w * weightDenominator.toNat
  let floor := asU16 scaled
  ⟨nexthop, floor, scaled - floor.toNat⟩

/-- `iter().sum()` over `u16`. -/
def sumWeights : List Share → (acc : UInt16) → Except Panic UInt16
  | [], acc => .ok acc
  | share :: rest, acc => do
      let acc ← checkedAdd acc share.weight
      sumWeights rest acc

/-- Give one more to the first `leftover` shares. -/
def topUp : (leftover : ℕ) → List Share → Except Panic (List Share)
  | 0, shares => .ok shares
  | _ + 1, [] => .ok []
  | leftover + 1, share :: rest => do
      let weight ← checkedAdd share.weight 1
      let rest ← topUp leftover rest
      .ok ({ share with weight } :: rest)

def quantise (order : IterOrder) (weights : Weights) : Except Panic (List WeightedNexthop) := do
  let shares := (order.iterate weights.entries).map fun e => Share.ofWeight e.1 e.2
  -- The floors might sum to less than the denominator due to truncation.
  let allocated ← sumWeights shares 0
  let leftover ← checkedSub weightDenominator allocated
  if ¬ leftover ≤ UInt16.ofNat shares.length then
    .error .debugAssertion
  let sorted := shares.insertionSort fun a b => b.remainder ≤ a.remainder
  let topped ← topUp leftover.toNat sorted
  .ok (topped.map fun share => ⟨share.nexthop, share.weight⟩)

end Descent

/-- The weights kept between ticks. -/
structure Descent where
  weights : FiniteMap Nlri Descent.Weights

namespace Descent

def default : Descent := ⟨∅⟩

/-- The stored weights of an NLRI, as `entry(nlri).or_default()` yields them. -/
def stored (descent : Descent) (nlri : Nlri) : Weights :=
  (descent.weights.get? nlri).getD ∅

/-- The weights after one tick, before they are quantised. -/
def advance (weights : Weights) (nlri : Nlri) (nexthops : List Nexthop)
    (snapshot : TcpRttSnapshot) : Weights :=
  let weights := reconcile weights nexthops
  let g := nexthops.map fun nh => (window? snapshot nlri nh).map gradient
  project (descend weights (nexthops.zip g))

def step (order : IterOrder) (descent : Descent) (nlri : Nlri) (nexthops : List Nexthop)
    (snapshot : TcpRttSnapshot) : Except Panic (Option (List WeightedNexthop) × Descent) := do
  if nexthops = [] then
    .ok (none, ⟨descent.weights.erase nlri⟩)
  else
    let weights := advance (descent.stored nlri) nlri nexthops snapshot
    let weighted ← quantise order weights
    .ok (some weighted, ⟨descent.weights.insert nlri weights⟩)

end Descent

end Erez.Daemon
