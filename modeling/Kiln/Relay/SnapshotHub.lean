import Mathlib
import Kiln.Lib.Behavior

/-!
# The snapshot hub

`RelaySnapshotHub` of apps/relay/src/snapshot-hub.ts. A step is what runs without a wait: a call, a load's promise
settling, a sleep's end, or a woken fiber going on. While a sample is passed to listeners the step is cut at each of
them, as a listener may unsubscribe anyone, read, refresh or close the hub; subscribing there is left out. Every
caller of `subscribe` passes a new closure, so a listener is known by the number of its subscription. An effect's
fibers run at once up to their first wait, `Fiber.await` and `Fiber.join` go on once their fiber has ended, and an
interrupted fiber ends at once.
-/

namespace Kiln.Relay
open Kiln.Lib

/-- A sample, with the load it comes from. -/
structure HubSample (α : Type) where
  sequence : Nat
  snapshot : α
  sampledAt : Int
  load : Nat

/-- Where a `read` or a `refresh` is. -/
inductive HubStage (α : Type) where
  /-- A refresh waits for the sampling that ran when it was called. -/
  | waiting (load : Nat)
  /-- The sampling it waited for has ended. -/
  | ready
  | joined (load : Nat)
  | settled (sample : Option (HubSample α))

structure HubCall (α : Type) where
  refreshes : Bool
  /-- How many loads had begun when it was called. -/
  asked : Nat
  stage : HubStage α

/-- Listeners being called. -/
inductive HubPhase (α : Type) where
  | idle
  /-- The loop over `#listeners`: those it was at. -/
  | delivering (sample : HubSample α) (visited : List Nat)
  /-- `subscribe` passes its listener the last sample. -/
  | replaying (listener : Nat)

structure HubState (α : Type) where
  /-- `#listeners`, in their order -/
  listeners : List Nat := []
  closed : Bool := false
  last : Option (HubSample α) := none
  /-- `#sampling`, by its load -/
  sampling : Option Nat := none
  /-- `#scheduleFiber` is set, and sleeps: as its sleep ends it's cleared. -/
  scheduled : Bool := false
  sequence : Nat := 0
  phase : HubPhase α := .idle
  /-- How many loads began, and those whose promise hasn't settled. -/
  loads : Nat := 0
  running : List Nat := []
  calls : List (HubCall α) := []
  /-- How many subscriptions there were, and those whose `subscribe` returned. -/
  subscriptions : Nat := 0
  returned : List Nat := []
  /-- The numbers each listener was passed. -/
  seen : Nat → List Nat := fun _ => []

inductive HubEvent (α : Type) where
  | subscribe (replay : Bool)
  /-- The listener returns from its replay, or throws. -/
  | replayed (throws : Bool)
  | unsubscribe (listener : Nat)
  | read (now : Int)
  | refresh
  | resume (call : Nat)
  /-- A load's promise settles. -/
  | loaded (load : Nat) (outcome : Option α) (now : Int)
  /-- The next listener of the loop, or its end; what a listener throws is caught. -/
  | deliver
  | expire
  | close

variable {α : Type}

/-- The end of a sampling, for those that wait for it. -/
def HubCall.ended (load : Nat) (result : Option (HubSample α)) (call : HubCall α) : HubCall α :=
  match call.stage with
  | .waiting other => if other = load then { call with stage := .ready } else call
  | .joined other => if other = load then { call with stage := .settled result } else call
  | _ => call

namespace HubState

/-- `sampleIntervalMs` -/
def sampleIntervalMs : Int := 2000

def beginLoad (s : HubState α) : HubState α :=
  { s with sampling := some s.loads, loads := s.loads + 1, running := s.running ++ [s.loads] }

/-- `#sampleEffect`, and what its caller waits for. -/
def sampleEffect (s : HubState α) : HubState α × HubStage α :=
  if s.closed then (s, .settled none)
  else
    match s.sampling with
    | some load => (s, .joined load)
    | none => (s.beginLoad, .joined s.loads)

/-- `#schedule` -/
def schedule (s : HubState α) : HubState α :=
  if s.closed || s.listeners.isEmpty || s.scheduled then s else { s with scheduled := true }

/-- `#cancelSchedule` -/
def cancelSchedule (s : HubState α) : HubState α := { s with scheduled := false }

def setStage (s : HubState α) (call : Nat) (stage : HubStage α) : HubState α :=
  { s with calls := s.calls.modify call fun value => { value with stage } }

/-- A sampling fiber's end, with its finalizer. -/
def endSampling (s : HubState α) (load : Nat) (result : Option (HubSample α)) : HubState α :=
  let s' := { s with sampling := if s.sampling = some load then none else s.sampling }
  let s' := if s'.listeners.isEmpty then s' else s'.schedule
  { s' with calls := s'.calls.map (HubCall.ended load result) }

def ask (s : HubState α) (refreshes : Bool) (stage : HubStage α) (asked : Nat) : HubState α :=
  { s with calls := s.calls ++ [{ refreshes, asked, stage }] }

/-- A refresh once nothing it has to outwait runs. -/
def refreshNow (s : HubState α) : HubState α × HubStage α := sampleEffect { s.cancelSchedule with last := none }

/-- The rest of `subscribe`, which then returns. -/
def subscribed (s : HubState α) (listener : Nat) : HubState α :=
  let s := { s with returned := s.returned ++ [listener], phase := .idle }
  if !s.scheduled && s.sampling.isNone then
    if s.last.isSome then s.schedule else s.sampleEffect.1
  else s

def isIdle (s : HubState α) : Bool :=
  match s.phase with
  | .idle => true
  | _ => false

def next (s : HubState α) : HubEvent α → Option (HubState α)
  | .subscribe replay =>
      if s.isIdle then
        if s.closed then some s
        else
          let listener := s.subscriptions
          let s := { s with listeners := s.listeners ++ [listener], subscriptions := s.subscriptions + 1 }
          match s.last, replay with
          | some sample, true =>
              some { s with
                seen := Function.update s.seen listener (s.seen listener ++ [sample.sequence])
                phase := .replaying listener }
          | _, _ => some (s.subscribed listener)
      else none
  | .replayed throws =>
      match s.phase with
      | .replaying listener => some (if throws then { s with phase := .idle } else s.subscribed listener)
      | _ => none
  | .unsubscribe listener =>
      if listener ∈ s.returned then
        let s := { s with listeners := s.listeners.erase listener }
        some (if s.listeners.isEmpty then s.cancelSchedule else s)
      else none
  | .read now =>
      match s.last.filter fun sample => now - sample.sampledAt < sampleIntervalMs with
      | some sample => some (s.ask false (.settled (some sample)) s.loads)
      | none =>
          let (s', stage) := s.sampleEffect
          some (s'.ask false stage s.loads)
  | .refresh =>
      match s.sampling with
      | some load => some (s.ask true (.waiting load) s.loads)
      | none =>
          let (s', stage) := s.refreshNow
          some (s'.ask true stage s.loads)
  | .resume call =>
      match s.isIdle, s.calls[call]? with
      | true, some ⟨_, _, .ready⟩ =>
          let (s', stage) := s.refreshNow
          some (s'.setStage call stage)
      | _, _ => none
  | .loaded load outcome now =>
      if s.isIdle && s.running.contains load then
        let s := { s with running := s.running.erase load }
        if s.sampling = some load then
          match outcome with
          | some snapshot =>
              let sample := { sequence := s.sequence + 1, snapshot, sampledAt := now, load }
              some { s with sequence := s.sequence + 1, last := some sample, phase := .delivering sample [] }
          | none => some (s.endSampling load none)
        else some s
      else none
  | .deliver =>
      match s.phase with
      | .delivering sample visited =>
          match s.listeners.find? (· ∉ visited) with
          | some listener =>
              some { s with
                seen := Function.update s.seen listener (s.seen listener ++ [sample.sequence])
                phase := .delivering sample (visited ++ [listener]) }
          | none => some ({ s with phase := .idle }.endSampling sample.load (some sample))
      | _ => none
  | .expire => if s.isIdle && s.scheduled then some { s with scheduled := false }.sampleEffect.1 else none
  | .close =>
      let s := { s.cancelSchedule with closed := true }
      let s := match s.sampling with
        | some load => s.endSampling load none
        | none => s
      some { s with sampling := none, listeners := [] }

end HubState

def hubSystem (α : Type) : System (HubState α) (HubEvent α) := .ofFunction (· = {}) HubState.next

/-! ## What is to hold -/

/-- A load runs, or its sample is being passed on. -/
def HubState.samples (s : HubState α) (load : Nat) : Prop :=
  load ∈ s.running ∨ ∃ sample visited, s.phase = .delivering sample visited ∧ sample.load = load

structure HubState.Steady (s : HubState α) : Prop where
  one : s.running.length ≤ 1
  rising : ∀ listener, (s.seen listener).Pairwise (· < ·)
  /-- No refresh resolves with a sample whose load had begun when it was called. -/
  fresh : ∀ call ∈ s.calls, call.refreshes = true → ∀ sample, call.stage = .settled (some sample) →
    call.asked ≤ sample.load
  active : s.closed = false → (∃ listener ∈ s.listeners, listener ∈ s.returned) →
    (∃ load, s.sampling = some load ∧ s.samples load) ∨ s.scheduled = true

def HubCall.isSettled (call : HubCall α) : Prop := ∃ result, call.stage = .settled result

/-- Some call, by its number. -/
def HubState.callIs (s : HubState α) (index : Nat) (p : HubCall α → Prop) : Prop :=
  ∃ call, s.calls[index]? = some call ∧ p call

/-- A behavior in which promises settle, listeners return and woken fibers go on. -/
structure HubState.Fair (run : Nat → HubState α) : Prop where
  loads : ∀ load, LeadsTo run (load ∈ ·.running) (load ∉ ·.running)
  phases : LeadsTo run (fun _ => True) (·.isIdle = true)
  resumes : ∀ index, LeadsTo run (·.callIs index (·.stage = .ready)) (¬ ·.callIs index (·.stage = .ready))

/-- Every refresh there is comes to be settled. -/
def HubState.Settles (run : Nat → HubState α) : Prop :=
  ∀ index, LeadsTo run (·.callIs index (·.refreshes = true)) (·.callIs index HubCall.isSettled)

end Kiln.Relay
