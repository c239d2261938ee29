import Erez.Ebpf.Stickiness
import Erez.Lib.Run

/-! # Executions on several CPUs

The encapsulation program as a sequence of atomic helper calls, so that executions
on different CPUs and FIB writes of userspace come in any order. An entry that was
looked up stays as it was, since a write replaces it. Between the lookup in socket
storage and the creation another execution may store a nexthop for the same socket;
the value that the creation then returns is not used.
-/

namespace Erez.Ebpf

open Erez.Daemon Erez.Lib ByteBuffer

/-- The helper call that an execution makes next. -/
inductive Phase where
  | stickyLookup
  | fibLookup
  | select (entry : CFibEntry)
  | store (matchedNlri : CNlri) (nexthop : CIpv6Addr)
  | encapsulate (nexthop : CIpv6Addr)

/-- The nexthop that is about to be stored. -/
def Phase.storing : Phase → Option CIpv6Addr
  | .store _ nexthop => some nexthop
  | _ => none

structure Execution (Sock : Type*) where
  env : EncapEnv
  skb : Skb Sock
  pkt : EncapPacket
  phase : Phase

/-- The maps, the executions that are under way, and the encapsulated packets so far. -/
structure World (Cpu Sock : Type*) where
  maps : Maps Sock
  running : Cpu → Option (Execution Sock)
  sent : List (Skb Sock × Frame)

inductive WorldEvent (Cpu Sock : Type*) where
  | update (key : CNlri) (entry : CFibEntry)
  | delete (key : CNlri)
  | arrive (cpu : Cpu) (env : EncapEnv) (skb : Skb Sock)
  | advance (cpu : Cpu)

namespace World

variable {Cpu Sock : Type*} [DecidableEq Cpu]

def goto (world : World Cpu Sock) (cpu : Cpu) (maps : Maps Sock) (exec : Execution Sock) :
    World Cpu Sock :=
  { world with maps, running := Function.update world.running cpu (some exec) }

def finish (world : World Cpu Sock) (cpu : Cpu) (maps : Maps Sock) : World Cpu Sock :=
  { world with maps, running := Function.update world.running cpu none }

def emit (world : World Cpu Sock) (cpu : Cpu) (maps : Maps Sock) (packet : Skb Sock × Frame) :
    World Cpu Sock :=
  { world.finish cpu maps with sent := world.sent ++ [packet] }

/-- The program starts on a CPU that is free, and parses the packet. -/
def arrive (world : World Cpu Sock) (cpu : Cpu) (env : EncapEnv) (skb : Skb Sock) :
    World Cpu Sock :=
  match world.running cpu with
  | some _ => world
  | none =>
      if ¬ env.metricsFound then world
      else
        let maps := world.maps.bump .encapProcessedPacketsTotal
        match encapPktParse env skb maps.metrics with
        | (.error _, metrics) => world.finish cpu { maps with metrics }
        | (.ok pkt, metrics) => world.goto cpu { maps with metrics } ⟨env, skb, pkt, .stickyLookup⟩

variable [DecidableEq Sock]

/-- The next helper call of the execution on a CPU, if there is one. -/
def advance (world : World Cpu Sock) (cpu : Cpu) : World Cpu Sock :=
  match world.running cpu with
  | none => world
  | some exec =>
      let maps := world.maps
      match exec.phase with
      | .stickyLookup =>
          match socketStickyNexthopLookup maps exec.skb.sk with
          | some nexthop =>
              world.goto cpu (maps.bump .encapStickyNexthopTotalHit)
                { exec with phase := .encapsulate nexthop }
          | none =>
              world.goto cpu (maps.bump .encapStickyNexthopTotalMiss)
                { exec with phase := .fibLookup }
      | .fibLookup =>
          match maps.fib.lookup exec.pkt.nlri with
          | none => world.finish cpu (maps.bump .encapFibMissesTotal)
          | some entry =>
              world.goto cpu (maps.bump .encapFibHitsTotal) { exec with phase := .select entry }
      | .select entry =>
          match fibEntrySelectNexthop entry exec.env.random maps.metrics with
          | (none, metrics) => world.finish cpu { maps with metrics }
          | (some nexthop, metrics) =>
              world.goto cpu { maps with metrics }
                { exec with phase := .store entry.matchedNlri nexthop }
      | .store matchedNlri nexthop =>
          match socketStickyNexthopStore exec.env maps exec.skb.sk ⟨matchedNlri, nexthop⟩ with
          | (true, maps) =>
              world.goto cpu (maps.bump .encapStickyNexthopTotalStore)
                { exec with phase := .encapsulate nexthop }
          | (false, maps) => world.goto cpu maps { exec with phase := .encapsulate nexthop }
      | .encapsulate nexthop =>
          let result := encapTowards exec.env maps exec.skb exec.pkt nexthop
          match result.act with
          | .shot => world.finish cpu result.maps
          | .ok => world.emit cpu result.maps (exec.skb, result.frame)

def step (world : World Cpu Sock) : WorldEvent Cpu Sock → World Cpu Sock
  | .update key entry =>
      { world with maps := { world.maps with fib := FiniteMap.insert world.maps.fib key.node entry } }
  | .delete key =>
      { world with maps := { world.maps with fib := FiniteMap.erase world.maps.fib key.node } }
  | .arrive cpu env skb => world.arrive cpu env skb
  | .advance cpu => world.advance cpu

def run (world : World Cpu Sock) (events : List (WorldEvent Cpu Sock)) : World Cpu Sock :=
  events.foldl step world

/-! ## An execution of its own -/

section Moves

omit [DecidableEq Sock]

variable (world : World Cpu Sock) (cpu : Cpu) (maps maps' : Maps Sock)
  (exec exec' : Execution Sock) (packet : Skb Sock × Frame)

@[simp]
theorem maps_goto : (world.goto cpu maps exec).maps = maps := rfl

@[simp]
theorem running_goto : (world.goto cpu maps exec).running cpu = some exec :=
  Function.update_self ..

@[simp]
theorem running_finish : (world.finish cpu maps).running cpu = none :=
  Function.update_self ..

@[simp]
theorem running_emit : (world.emit cpu maps packet).running cpu = none :=
  Function.update_self ..

@[simp]
theorem goto_goto :
    (world.goto cpu maps exec).goto cpu maps' exec' = world.goto cpu maps' exec' := by
  simp [goto]

@[simp]
theorem finish_goto : (world.goto cpu maps exec).finish cpu maps' = world.finish cpu maps' := by
  simp [goto, finish]

@[simp]
theorem emit_goto :
    (world.goto cpu maps exec).emit cpu maps' packet = world.emit cpu maps' packet := by
  simp [goto, finish, emit]

end Moves

/-- A free CPU has nothing to advance. -/
theorem run_advance_free {world : World Cpu Sock} {cpu : Cpu} (free : world.running cpu = none)
    (n : ℕ) : world.run (List.replicate n (.advance cpu)) = world := by
  induction n with
  | zero => rfl
  | succ n ih =>
      have still : world.step (.advance cpu) = world := by simp [step, advance, free]
      rw [List.replicate_succ, run, List.foldl_cons, still]
      exact ih

/-- The execution on a CPU, with `n` more helper calls and no interruption, ends as a run
    of the program does. -/
def Ends (world : World Cpu Sock) (cpu : Cpu) (n : ℕ) (skb : Skb Sock)
    (result : EncapResult Sock) (before : World Cpu Sock) : Prop :=
  before.run (List.replicate n (.advance cpu)) = world.finish cpu result.maps ∨
    before.run (List.replicate n (.advance cpu)) = world.emit cpu result.maps (skb, result.frame)

section Ends

variable {world before : World Cpu Sock} {cpu : Cpu} {n : ℕ} {skb : Skb Sock}
  {result : EncapResult Sock}

theorem Ends.of_advance (h : world.Ends cpu n skb result (before.advance cpu)) :
    world.Ends cpu (n + 1) skb result before := by
  rw [Ends, List.replicate_succ]
  exact h

theorem ends_finish (n : ℕ) : world.Ends cpu n skb result (world.finish cpu result.maps) :=
  .inl (run_advance_free (running_finish ..) n)

theorem ends_emit (n : ℕ) :
    world.Ends cpu n skb result (world.emit cpu result.maps (skb, result.frame)) :=
  .inr (run_advance_free (running_emit ..) n)

end Ends

theorem ends_encapsulate (world : World Cpu Sock) (cpu : Cpu) (maps : Maps Sock)
    (env : EncapEnv) (skb : Skb Sock) (pkt : EncapPacket) (nexthop : CIpv6Addr) (n : ℕ) :
    world.Ends cpu (n + 1) skb (encapTowards env maps skb pkt nexthop)
      (world.goto cpu maps ⟨env, skb, pkt, .encapsulate nexthop⟩) := by
  apply Ends.of_advance
  simp only [advance, running_goto, maps_goto]
  generalize encapTowards env maps skb pkt nexthop = result
  cases result.act with
  | shot =>
      simp only [finish_goto]
      exact ends_finish n
  | ok =>
      simp only [emit_goto]
      exact ends_emit n

/-- From the storage lookup on, five calls are enough. -/
theorem ends_chosen (world : World Cpu Sock) (cpu : Cpu) (maps : Maps Sock) (env : EncapEnv)
    (skb : Skb Sock) (pkt : EncapPacket) :
    world.Ends cpu 5 skb
      (match chooseNexthop env maps skb.sk pkt with
      | (none, maps) => ⟨.ok, skb.data, maps⟩
      | (some nexthop, maps) => encapTowards env maps skb pkt nexthop)
      (world.goto cpu maps ⟨env, skb, pkt, .stickyLookup⟩) := by
  apply Ends.of_advance
  unfold chooseNexthop
  cases own : socketStickyNexthopLookup maps skb.sk with
  | some nexthop =>
      simp only [advance, running_goto, maps_goto, own, goto_goto]
      exact ends_encapsulate world cpu _ env skb pkt nexthop 3
  | none =>
      simp only [advance, running_goto, maps_goto, own, goto_goto]
      apply Ends.of_advance
      simp only [advance, running_goto, maps_goto, goto_goto, finish_goto, Maps.bump_fib]
      cases found : maps.fib.lookup pkt.nlri with
      | none => exact ends_finish 3
      | some entry =>
          simp only
          apply Ends.of_advance
          simp only [advance, running_goto, maps_goto, goto_goto, finish_goto]
          rcases selection : fibEntrySelectNexthop entry env.random
            ((maps.bump .encapStickyNexthopTotalMiss).bump .encapFibHitsTotal).metrics with
            ⟨selected, metrics⟩
          cases selected with
          | none => exact ends_finish 2
          | some nexthop =>
              simp only
              apply Ends.of_advance
              simp only [advance, running_goto, maps_goto, goto_goto]
              rcases stored : socketStickyNexthopStore env
                { (maps.bump .encapStickyNexthopTotalMiss).bump .encapFibHitsTotal with metrics }
                skb.sk ⟨entry.matchedNlri, nexthop⟩ with ⟨success, after⟩
              have sameStore : socketStickyNexthopStore env ⟨maps.fib, maps.sticky, metrics⟩ skb.sk
                  ⟨entry.matchedNlri, nexthop⟩ = (success, after) := stored
              cases success with
              | true =>
                  simp only [Maps.bump, sameStore]
                  exact ends_encapsulate world cpu _ env skb pkt nexthop 0
              | false =>
                  simp only [Maps.bump, sameStore]
                  exact ends_encapsulate world cpu _ env skb pkt nexthop 0

/-- Without interruption, an execution is a run of the program. -/
theorem ends_alone (world : World Cpu Sock) {cpu : Cpu} (free : world.running cpu = none)
    (env : EncapEnv) (skb : Skb Sock) :
    world.Ends cpu 5 skb (erezEncap env world.maps skb) (world.arrive cpu env skb) := by
  unfold erezEncap arrive
  simp only [free]
  split
  · have same : world.finish cpu world.maps = world := by
      rw [finish, ← free, Function.update_eq_self]
    have ended : world.Ends cpu 5 skb ⟨.shot, skb.data, world.maps⟩ _ := ends_finish 5
    rwa [same] at ended
  · rcases parsed : encapPktParse env skb
      (world.maps.bump .encapProcessedPacketsTotal).metrics with ⟨outcome, metrics⟩
    cases outcome with
    | error act => exact ends_finish 5
    | ok pkt => exact ends_chosen world cpu _ env skb pkt

/-! ## One nexthop per socket -/

/-- The outer destination of an encapsulated frame. -/
def outerDest (frame : Frame) : List UInt8 :=
  slice frame (ethHdrLen + 24) 16

/-- Any two encapsulated packets of a socket have the same outer destination. -/
def Consistent (world : World Cpu Sock) : Prop :=
  ∀ p ∈ world.sent, ∀ q ∈ world.sent, ∀ sock, p.1.sk = some sock → q.1.sk = some sock →
    outerDest p.2 = outerDest q.2

/-- When an execution is about to store the nexthop it selected, no other nexthop is
    stored for its socket. -/
def Agrees (world : World Cpu Sock) : WorldEvent Cpu Sock → Prop
  | .advance cpu => ∀ exec ∈ world.running cpu, ∀ nexthop ∈ exec.phase.storing,
      ∀ sock ∈ exec.skb.sk, ∀ sticky ∈ world.maps.sticky sock, sticky.nexthop = nexthop
  | _ => True

instance (world : World Cpu Sock) (event : WorldEvent Cpu Sock) : Decidable (world.Agrees event) :=
  match event with
  | .advance _ => inferInstanceAs (Decidable (∀ _ ∈ _, _))
  | .update _ _ | .delete _ | .arrive _ _ _ => .isTrue trivial

/-- Storage can be created for the packets that arrive. -/
def Creates : WorldEvent Cpu Sock → Prop
  | .arrive _ env _ => env.storageCreate = true
  | _ => True

instance (event : WorldEvent Cpu Sock) : Decidable (Creates event) :=
  match event with
  | .arrive _ env _ => inferInstanceAs (Decidable (env.storageCreate = true))
  | .update _ _ | .delete _ | .advance _ => .isTrue trivial

/-- The nexthop is the one that is stored for the socket, if there is a socket. -/
def Settled (maps : Maps Sock) (sk : Option Sock) (nexthop : CIpv6Addr) : Prop :=
  ∀ sock, sk = some sock → ∃ sticky, maps.sticky sock = some sticky ∧ sticky.nexthop = nexthop

/-- What holds of an execution at any point. -/
structure Sound (maps : Maps Sock) (exec : Execution Sock) : Prop where
  creates : exec.env.storageCreate = true
  settled : ∀ nexthop, exec.phase = .encapsulate nexthop → Settled maps exec.skb.sk nexthop

/-- Packets went, and executions will send theirs, where socket storage says. -/
structure Inv (world : World Cpu Sock) : Prop where
  running : ∀ cpu exec, world.running cpu = some exec → Sound world.maps exec
  sent : ∀ p ∈ world.sent, ∃ nexthop, outerDest p.2 = nexthop.octets.toList ∧
    Settled world.maps p.1.sk nexthop

/-- Stored values are still there. -/
def Keeps (maps after : Maps Sock) : Prop :=
  ∀ sock sticky, maps.sticky sock = some sticky → after.sticky sock = some sticky

section Invariant

variable {world : World Cpu Sock} {maps after : Maps Sock} {exec : Execution Sock} {cpu : Cpu}

omit [DecidableEq Cpu] [DecidableEq Sock] in
theorem Inv.consistent (inv : world.Inv) : world.Consistent := by
  intro p sentP q sentQ sock ownP ownQ
  obtain ⟨nexthop, dest, settled⟩ := inv.sent p sentP
  obtain ⟨nexthop', dest', settled'⟩ := inv.sent q sentQ
  obtain ⟨sticky, stored, rfl⟩ := settled sock ownP
  obtain ⟨sticky', stored', rfl⟩ := settled' sock ownQ
  obtain rfl := Option.some.inj (stored.symm.trans stored')
  rw [dest, dest']

omit [DecidableEq Sock] in
theorem Settled.keeps {sk : Option Sock} {nexthop : CIpv6Addr} (h : Settled maps sk nexthop)
    (keeps : Keeps maps after) : Settled after sk nexthop := by
  intro sock own
  obtain ⟨sticky, stored, same⟩ := h sock own
  exact ⟨sticky, keeps sock sticky stored, same⟩

omit [DecidableEq Sock] in
theorem Sound.keeps (h : Sound maps exec) (keeps : Keeps maps after) : Sound after exec :=
  ⟨h.creates, fun nexthop here => (h.settled nexthop here).keeps keeps⟩

omit [DecidableEq Cpu] [DecidableEq Sock] in
theorem Inv.sent_keeps (inv : world.Inv) (keeps : Keeps world.maps after) :
    ∀ p ∈ world.sent, ∃ nexthop, outerDest p.2 = nexthop.octets.toList ∧
      Settled after p.1.sk nexthop := by
  intro p member
  obtain ⟨nexthop, dest, settled⟩ := inv.sent p member
  exact ⟨nexthop, dest, settled.keeps keeps⟩

omit [DecidableEq Sock] in
theorem Inv.goto (inv : world.Inv) (keeps : Keeps world.maps after) (sound : Sound after exec) :
    (world.goto cpu after exec).Inv := by
  constructor
  case running =>
    intro other exec' under
    by_cases here : other = cpu
    · subst here
      obtain rfl := Option.some.inj ((running_goto ..).symm.trans under)
      exact sound
    · have before : world.running other = some exec' := by simpa [World.goto, here] using under
      exact (inv.running other exec' before).keeps keeps
  case sent => exact inv.sent_keeps keeps

omit [DecidableEq Sock] in
theorem Inv.finish (inv : world.Inv) (keeps : Keeps world.maps after) :
    (world.finish cpu after).Inv := by
  constructor
  case running =>
    intro other exec' under
    by_cases here : other = cpu
    · subst here
      cases (running_finish ..).symm.trans under
    · have before : world.running other = some exec' := by simpa [World.finish, here] using under
      exact (inv.running other exec' before).keeps keeps
  case sent => exact inv.sent_keeps keeps

omit [DecidableEq Sock] in
theorem Inv.emit (inv : world.Inv) (keeps : Keeps world.maps after) {skb : Skb Sock}
    {frame : Frame} {nexthop : CIpv6Addr} (dest : outerDest frame = nexthop.octets.toList)
    (settled : Settled after skb.sk nexthop) : (world.emit cpu after (skb, frame)).Inv := by
  refine ⟨(inv.finish keeps).running, fun q member => ?_⟩
  rcases List.mem_append.mp member with earlier | last
  · exact inv.sent_keeps keeps q earlier
  · obtain rfl := List.mem_singleton.mp last
    exact ⟨nexthop, dest, settled⟩

/-- Get-or-create never replaces a value. -/
theorem keeps_store (env : EncapEnv) (maps : Maps Sock) (sk : Option Sock)
    (sticky : SocketStickyNexthop) : Keeps maps (socketStickyNexthopStore env maps sk sticky).2 := by
  intro sock old stored
  unfold socketStickyNexthopStore
  cases sk with
  | none => exact stored
  | some owner =>
      simp only
      split
      · exact stored
      · rename_i absent
        split
        · have other : sock ≠ owner := by
            rintro rfl
            simp [stored] at absent
          simpa [other] using stored
        · exact stored

/-- Afterwards the socket has the nexthop, unless it had another one. -/
theorem settled_store {env : EncapEnv} (creates : env.storageCreate = true) {sk : Option Sock}
    {sticky : SocketStickyNexthop}
    (agrees : ∀ sock, sk = some sock → ∀ old ∈ maps.sticky sock, old.nexthop = sticky.nexthop) :
    Settled (socketStickyNexthopStore env maps sk sticky).2 sk sticky.nexthop := by
  rintro sock rfl
  cases stored : maps.sticky sock with
  | some old =>
      have kept := keeps_store env maps (some sock) sticky sock old stored
      exact ⟨old, kept, agrees sock rfl old stored⟩
  | none => exact ⟨sticky, by simp [socketStickyNexthopStore, stored, creates], rfl⟩

omit [DecidableEq Sock] in
/-- A nexthop that is found in storage is the one in storage. -/
theorem settled_lookup {sk : Option Sock} {nexthop : CIpv6Addr}
    (own : socketStickyNexthopLookup maps sk = some nexthop) : Settled maps sk nexthop := by
  rintro sock rfl
  exact Option.map_eq_some_iff.mp own

theorem Inv.advance (inv : world.Inv) (agrees : world.Agrees (.advance cpu)) :
    (world.advance cpu).Inv := by
  unfold World.advance
  cases under : world.running cpu with
  | none => exact inv
  | some exec =>
      have sound := inv.running cpu exec under
      obtain ⟨env, skb, pkt, phase⟩ := exec
      have counted : ∀ counter, Keeps world.maps (world.maps.bump counter) :=
        fun _ _ _ stored => stored
      have settles : ∀ {maps nexthop}, Settled maps skb.sk nexthop → ∀ chosen,
          Phase.encapsulate nexthop = .encapsulate chosen → Settled maps skb.sk chosen := by
        rintro maps nexthop settled chosen ⟨⟩
        exact settled
      cases phase with
      | stickyLookup =>
          simp only
          cases own : socketStickyNexthopLookup world.maps skb.sk with
          | none => exact inv.goto (counted _) ⟨sound.creates, nofun⟩
          | some nexthop =>
              exact inv.goto (counted _) ⟨sound.creates, settles (settled_lookup own)⟩
      | fibLookup =>
          simp only
          cases world.maps.fib.lookup pkt.nlri with
          | none => exact inv.finish (counted _)
          | some entry => exact inv.goto (counted _) ⟨sound.creates, nofun⟩
      | select entry =>
          simp only
          rcases fibEntrySelectNexthop entry env.random world.maps.metrics with
            ⟨selected, metrics⟩
          cases selected with
          | none => exact inv.finish fun _ _ stored => stored
          | some nexthop => exact inv.goto (fun _ _ stored => stored) ⟨sound.creates, nofun⟩
      | store matchedNlri nexthop =>
          simp only
          have keeps := keeps_store env world.maps skb.sk ⟨matchedNlri, nexthop⟩
          have settled : Settled (socketStickyNexthopStore env world.maps skb.sk
              ⟨matchedNlri, nexthop⟩).2 skb.sk nexthop :=
            settled_store sound.creates fun sock owner => agrees _ under nexthop rfl sock owner
          rcases stored : socketStickyNexthopStore env world.maps skb.sk
            ⟨matchedNlri, nexthop⟩ with ⟨success, after⟩
          rw [stored] at keeps settled
          cases success with
          | true => exact inv.goto keeps ⟨sound.creates, settles settled⟩
          | false => exact inv.goto keeps ⟨sound.creates, settles settled⟩
      | encapsulate nexthop =>
          simp only [encapTowards]
          cases wrapped : encapPktEncapsulateIp6Gre env skb.data pkt nexthop with
          | error frame => exact inv.finish (counted _)
          | ok frame =>
              exact inv.emit (counted _) (outer_dest wrapped)
                ((sound.settled nexthop rfl).keeps (counted _))

omit [DecidableEq Sock] in
theorem Inv.arrive (inv : world.Inv) {env : EncapEnv} (creates : env.storageCreate = true)
    (skb : Skb Sock) : (world.arrive cpu env skb).Inv := by
  unfold World.arrive
  cases world.running cpu with
  | some exec => exact inv
  | none =>
      simp only
      split
      · exact inv
      · rcases encapPktParse env skb (world.maps.bump .encapProcessedPacketsTotal).metrics with
          ⟨outcome, metrics⟩
        cases outcome with
        | error act => exact inv.finish fun _ _ stored => stored
        | ok pkt => exact inv.goto (fun _ _ stored => stored) ⟨creates, nofun⟩

omit [DecidableEq Cpu] [DecidableEq Sock] in
theorem Inv.write (inv : world.Inv) (fib : Fib) :
    Inv { world with maps := { world.maps with fib } } := by
  have keeps : Keeps world.maps { world.maps with fib } := fun _ _ stored => stored
  exact ⟨fun cpu exec under => (inv.running cpu exec under).keeps keeps, inv.sent_keeps keeps⟩

theorem Inv.step (inv : world.Inv) {event : WorldEvent Cpu Sock} (creates : Creates event)
    (agrees : world.Agrees event) : (world.step event).Inv := by
  cases event with
  | update key entry => exact inv.write _
  | delete key => exact inv.write _
  | arrive cpu env skb => exact inv.arrive creates skb
  | advance cpu => exact inv.advance agrees

end Invariant

/-- In every run in which no execution finds another nexthop stored than the one it
    selected, all packets of a socket go to one nexthop. -/
theorem consistent_of_agrees (start : World Cpu Sock) (idle : ∀ cpu, start.running cpu = none)
    (unsent : start.sent = []) (events : List (WorldEvent Cpu Sock))
    (creates : ∀ event ∈ events, Creates event)
    (agrees : ∀ earlier event, earlier ++ [event] <+: events → (start.run earlier).Agrees event) :
    (start.run events).Consistent := by
  have nothing : start.Inv := by
    constructor
    case running =>
      intro cpu exec under
      cases (idle cpu).symm.trans under
    case sent =>
      intro p member
      rw [unsent] at member
      cases member
  have inv : (start.run events).Inv := by
    refine foldl_invariant Inv (fun world event => Creates event ∧ world.Agrees event) ?_ nothing ?_
    · intro world event inv both
      exact inv.step both.1 both.2
    intro earlier event inside
    exact ⟨creates event (inside.subset (by simp)), agrees earlier event inside⟩
  exact inv.consistent

section TwoCpus

private def sharedNet : IpNet := .v4 (.clamped (.new 203 0 113 0) 24)

private def hopA : CIpv6Addr := .ofIpAddr (.v4 (.new 192 0 2 1))

private def hopB : CIpv6Addr := .ofIpAddr (.v4 (.new 192 0 2 2))

private def atRest : World ℕ ℕ :=
  ⟨⟨∅, fun _ => none, Metrics.zero⟩, fun _ => none, []⟩

/-- A prefix with two nexthops of equal weight. -/
private def twoHops : WorldEvent ℕ ℕ :=
  .update (CNlri.ofIpNet sharedNet) ⟨CNlri.ofIpNet sharedNet, 2,
    packed maxNexthops [hopA, hopB] .unspecified, packed maxNexthops [5000, 5000] 0⟩

/-- A packet of one and the same socket, with the random number it will draw. -/
private def packetOn (cpu : ℕ) (random : UInt32) : WorldEvent ℕ ℕ :=
  .arrive cpu { EncapEnv.smooth with random } (udpTo (some 7) (.new 203 0 113 9))

private def inTurn : List (WorldEvent ℕ ℕ) :=
  [twoHops, packetOn 0 0] ++ List.replicate 5 (.advance 0) ++
    packetOn 1 9999 :: List.replicate 2 (.advance 1)

private theorem agrees_inTurn : ∀ n : Fin 10, ∀ event ∈ inTurn[n.val]?,
    (atRest.run (inTurn.take n)).Agrees event := by
  decide +kernel

/-- The second packet finds what the first one stored. -/
theorem consistent_in_turn : (atRest.run inTurn).Consistent := by
  refine consistent_of_agrees atRest (fun _ => rfl) rfl inTurn (by decide +kernel) ?_
  rintro earlier event ⟨rest, split⟩
  have next : inTurn[earlier.length]? = some event := by
    rw [← split]
    simp
  have front : inTurn.take earlier.length = earlier := by
    rw [← split]
    simp
  have short : earlier.length < 10 := (List.getElem?_eq_some_iff.mp next).1
  have here := agrees_inTurn ⟨earlier.length, short⟩ event next
  rwa [front] at here

/-- Both executions find nothing stored, and each sends its packet where it likes. -/
private def racing : List (WorldEvent ℕ ℕ) :=
  [twoHops, packetOn 0 0, packetOn 1 9999] ++
    (List.replicate 5 [.advance 0, .advance 1]).flatten

theorem two_nexthops_for_one_socket : ¬ (atRest.run racing).Consistent := by
  intro consistent
  have sent : (atRest.run racing).sent.map (fun p => (p.1.sk, outerDest p.2)) =
      [(some 7, hopA.octets.toList), (some 7, hopB.octets.toList)] := by
    decide +kernel
  obtain ⟨p, others, split, first, rest⟩ := List.map_eq_cons_iff.mp sent
  obtain ⟨q, none, split', second, -⟩ := List.map_eq_cons_iff.mp rest
  have same := consistent p (by simp [split]) q (by simp [split, split']) 7
    (congrArg Prod.fst first) (congrArg Prod.fst second)
  have dests : hopA.octets.toList = hopB.octets.toList :=
    (congrArg Prod.snd first).symm.trans (same.trans (congrArg Prod.snd second))
  exact absurd dests (by decide)

end TwoCpus

end World

end Erez.Ebpf
