import Kiln.Lib.OrderedMap
import Kiln.Lib.Transition

/-!
# Artifacts that a Relay pulls

`TransferPulls` (`apps/relay/src/transfers/peer/pulls.ts`) for one transfer ID: nothing it keeps is shared
between IDs. What runs between two awaits is one step. Calls are numbered, and so are the fibers that
pull.

What a source sends, which of its endpoints answers and when a fetch is tried again are whatever they
are. A save of the record takes its turn (`#saving`), first come, first served, writes what the record is
once its turn comes, and isn't stopped (`effect/atomic-file.ts`); saves don't fail. A lane grants an
install at any time; once granted its work runs to its end though its fiber is interrupted
(`packages/operations/src/lanes.ts:397-445`).

A pull's error text, its endpoint, its times and the grant's other fields are left out.
-/

namespace Kiln.Relay
open Kiln.Lib

inductive PullState where
  | pulling
  | verifying
  | installing
  | completed
  | failed
  | cancelled
  deriving DecidableEq, Repr

namespace PullState

/-- `finished`. -/
def finished : PullState → Bool
  | .completed | .failed | .cancelled => true
  | _ => false

/-- Whether a start starts it again. -/
def startable : PullState → Bool
  | .failed | .cancelled => true
  | _ => false

/-- Whether a cancel stops it. -/
def cancellable : PullState → Bool
  | .pulling | .verifying | .failed => true
  | _ => false

end PullState

/-- A pull, as it is asked for and granted. -/
structure PullStart (δ τ : Type) where
  target : τ
  sha256 : δ
  size : Nat
  deriving DecidableEq, Repr

/-- `PullRecord`. -/
structure PullRecord (δ τ : Type) where
  target : τ
  sha256 : δ
  size : Nat
  receivedBytes : Nat
  state : PullState
  deriving DecidableEq, Repr

/-- What a fiber awaits. A stage that says what it writes down awaits its save. -/
inductive PullStage where
  | sizing
  /-- `receivedBytes`, as the part's size is. -/
  | noting (offset : Nat)
  | oversized
  | requesting (offset : Nat)
  /-- `endpoint`. -/
  | answering (offset : Nat)
  | appending (received : Nat)
  /-- `receivedBytes`, at the end of a response. -/
  | counting
  /-- The error, before the fetch is tried again. -/
  | retrying
  | waiting
  /-- `state: "verifying"`. -/
  | verifying
  | hashing
  | discarding
  /-- `state: "installing"`. -/
  | marking
  | resolving
  | installing
  | clearing
  /-- `state: "completed"`. -/
  | completing
  /-- `state: "failed"`. -/
  | failing
  deriving DecidableEq, Repr

/-- A fiber that was forked, and once it ran the record it read. -/
inductive PullRun (δ τ : Type) where
  | begun
  | going (record : PullRecord δ τ) (stage : PullStage)
  deriving DecidableEq, Repr

structure PullFiber (δ τ : Type) where
  id : Nat
  run : PullRun δ τ
  interrupted : Bool := false
  deriving DecidableEq, Repr

inductive StartStage where
  | resolving
  | sizing
  | making (receivedBytes : Nat)
  | saving
  deriving DecidableEq, Repr

inductive CancelStage where
  | interrupting (fiber : Nat)
  | removing
  | saving
  deriving DecidableEq, Repr

/-- A call under way, and what it awaits. -/
inductive PullCall (δ τ : Type) where
  | start (input : PullStart δ τ) (stage : StartStage)
  | cancel (stage : CancelStage)
  deriving DecidableEq, Repr

/-- Whose save it is. A save of progress is awaited by nobody. -/
inductive PullSaver where
  | fiber
  | call (id : Nat)
  | progress
  | load
  deriving DecidableEq, Repr

/-- An install in the lanes, with what it reads of the part file once it is granted. -/
structure PullInstall (β δ : Type) where
  fiber : Nat
  sha256 : δ
  reading : Option (Option (List β)) := none
  deriving DecidableEq, Repr

/-- What was installed, and whether it was after a cancel had answered. -/
structure PullInstalled (β δ : Type) where
  content : List β
  sha256 : δ
  quiet : Bool
  deriving DecidableEq, Repr

/-- The Relay's state of a transfer ID: its record in memory and on disk, its part file, its fiber, the calls and saves
under way with what the first of these writes, and its installs. `quiet` and `installed` are noted by nothing but the
model: that a cancel has answered `cancelled` and no start was called since, and what was installed. -/
structure PullWorld (β δ τ : Type) where
  memory : Option (PullRecord δ τ) := none
  disk : Option (PullRecord δ τ) := none
  part : Option (List β) := none
  fiber : Option (PullFiber δ τ) := none
  nextFiber : Nat := 0
  calls : OrderedMap Nat (PullCall δ τ) := .empty
  saving : List PullSaver := []
  writing : Option (PullRecord δ τ) := none
  works : List (PullInstall β δ) := []
  loading : Bool := false
  quiet : Bool := false
  installed : List (PullInstalled β δ) := []
  deriving DecidableEq

/-- How a fiber goes on after what it awaited. -/
inductive FiberEvent (β : Type) where
  | begin
  | size
  /-- A source answers with the part that was asked for. -/
  | answer
  /-- An address fails; there is another to try, or not. -/
  | broke (another : Bool)
  /-- Bytes come in, and are noted on disk now and then. -/
  | chunk (bytes : List β) (noted : Bool)
  | ended
  | retry (again : Bool)
  | hashed (readable : Bool)
  | resolved (found : Bool)
  | removed
  deriving DecidableEq, Repr

/-- One step. -/
inductive PullEvent (β δ τ : Type) where
  | start (id : Nat) (input : PullStart δ τ)
  | resolved (id : Nat) (found : Bool)
  | sized (id : Nat)
  | made (id : Nat)
  | cancel (id : Nat)
  | interrupted (id : Nat)
  | removed (id : Nat)
  | write
  | wrote
  | unwind
  | fiber (event : FiberEvent β)
  | grant (fiber : Nat)
  | installed (fiber : Nat) (ok : Bool)
  /-- The Relay stops, a record that was being written in place or not, and starts again. -/
  | restart (landed expired : Bool)
  deriving DecidableEq, Repr

variable {β δ τ : Type} [DecidableEq δ] [DecidableEq τ]

namespace PullWorld

def partSize (world : PullWorld β δ τ) : Nat := (world.part.getD []).length

/-- A fiber goes on to what it awaits next. -/
def goOn (world : PullWorld β δ τ) (fiber : PullFiber δ τ) (record : PullRecord δ τ)
    (stage : PullStage) : PullWorld β δ τ :=
  { world with fiber := some { fiber with run := .going record stage } }

/-- `#update` by a fiber. Without a record it fails, and so does its fiber. -/
def update (world : PullWorld β δ τ) (fiber : PullFiber δ τ) (record : PullRecord δ τ)
    (change : PullRecord δ τ → PullRecord δ τ) (stage : PullStage) : PullWorld β δ τ :=
  match world.memory with
  | none => { world with fiber := none }
  | some current =>
      { world with
        memory := some (change current)
        saving := world.saving ++ [.fiber]
        fiber := some { fiber with run := .going record stage } }

def become (state : PullState) (record : PullRecord δ τ) : PullRecord δ τ := { record with state }

/-- `#pull` and `#fetch`, after an await. -/
def fiberNext (digest : List β → δ) (world : PullWorld β δ τ) (fiber : PullFiber δ τ) :
    PullRun δ τ → FiberEvent β → Option (PullWorld β δ τ)
  | .begun, .begin =>
      match world.memory with
      | none => some { world with fiber := none }
      | some record =>
          some (world.goOn fiber record (if record.state = .pulling then .sizing else .hashing))
  | .going record .sizing, .size =>
      some (world.update fiber record ({ · with receivedBytes := world.partSize }) (.noting world.partSize))
  | .going record .sizing, .broke false => some (world.update fiber record id .retrying)
  | .going record .oversized, .removed =>
      some ({ world with part := none }.update fiber record id .retrying)
  | .going record (.requesting offset), .answer =>
      some (world.update fiber record id (.answering offset))
  | .going record (.requesting _), .broke another | .going record (.appending _), .broke another =>
      some (if another then world.goOn fiber record .sizing
        else world.update fiber record id .retrying)
  | .going record (.appending received), .chunk bytes noted =>
      some { world with
        part := some (world.part.getD [] ++ bytes)
        memory := world.memory.map ({ · with receivedBytes := received + bytes.length })
        saving := world.saving ++ if noted then [.progress] else []
        fiber := some { fiber with run := .going record (.appending (received + bytes.length)) } }
  | .going record (.appending received), .ended =>
      some (world.update fiber record ({ · with receivedBytes := received }) .counting)
  | .going record .waiting, .retry again =>
      some (if again then world.goOn fiber record .sizing
        else world.update fiber record (become .failed) .failing)
  | .going record .hashing, .hashed readable =>
      match world.part with
      | some content =>
          if readable then
            some (if digest content = record.sha256 then
              world.update fiber record (become .installing) .marking
            else world.goOn fiber record .discarding)
          else some (world.update fiber record (become .failed) .failing)
      | none => some (world.update fiber record (become .failed) .failing)
  | .going record .discarding, .removed =>
      some ({ world with part := none }.update fiber record (become .failed) .failing)
  | .going record .resolving, .resolved found =>
      let install : PullInstall β δ := { fiber := fiber.id, sha256 := record.sha256 }
      some (if found then
        { world with works := world.works ++ [install] }.goOn fiber record .installing
      else world.update fiber record (become .failed) .failing)
  | .going record .clearing, .removed =>
      some ({ world with part := none }.update fiber record (become .completed) .completing)
  | _, _ => none

/-- A fiber goes on once its save is done. -/
def saved (world : PullWorld β δ τ) (fiber : PullFiber δ τ) : PullWorld β δ τ :=
  match fiber.run with
  | .begun => world
  | .going record stage =>
      match stage with
      | .noting offset =>
          if offset = record.size then world.update fiber record (become .verifying) .verifying
          else if offset > record.size then world.goOn fiber record .oversized
          else world.goOn fiber record (.requesting offset)
      | .answering offset => world.goOn fiber record (.appending offset)
      | .counting => world.update fiber record (become .verifying) .verifying
      | .retrying => world.goOn fiber record .waiting
      | .verifying => world.goOn fiber record .hashing
      | .marking => world.goOn fiber record .resolving
      | .completing | .failing => { world with fiber := none }
      | _ => world

/-- `#run`. -/
def run (world : PullWorld β δ τ) : PullWorld β δ τ :=
  match world.fiber with
  | some _ => world
  | none => { world with
      fiber := some { id := world.nextFiber, run := .begun }
      nextFiber := world.nextFiber + 1 }

/-- `start`, to its first await. -/
def start (world : PullWorld β δ τ) (id : Nat) (input : PullStart δ τ) : Option (PullWorld β δ τ) :=
  if world.loading || world.calls.has id then none
  else
    let called := { world with quiet := false }
    let begins := { called with calls := world.calls.set id (.start input .resolving) }
    some <| match world.memory with
      | none => begins
      | some existing =>
          if existing.target ≠ input.target ∨ existing.sha256 ≠ input.sha256 then called
          else if existing.state.startable then begins
          else called

/-- `cancel`, to its first await. -/
def cancel (world : PullWorld β δ τ) (id : Nat) : Option (PullWorld β δ τ) :=
  if world.loading || world.calls.has id then none
  else
    match world.memory with
    | none => some world
    | some pull =>
        if pull.state.cancellable then
          match world.fiber with
          | some running => some { world with
              fiber := some { running with interrupted := true }
              calls := world.calls.set id (.cancel (.interrupting running.id)) }
          | none => some { world with calls := world.calls.set id (.cancel .removing) }
        else some { world with quiet := world.quiet || pull.state = .cancelled }

/-- What waited for a save goes on. -/
def goesOn (world : PullWorld β δ τ) : PullSaver → PullWorld β δ τ
  | .fiber =>
      match world.fiber with
      | some fiber => if fiber.interrupted then { world with fiber := none } else world.saved fiber
      | none => world
  | .call id =>
      match world.calls.get id with
      | some (.start _ .saving) => { world with calls := world.calls.delete id }.run
      | some (.cancel .saving) => { world with calls := world.calls.delete id, quiet := true }
      | _ => world
  | .progress => world
  | .load => { world with loading := false }

/-- The fiber whose install has ended goes on. -/
def worked (world : PullWorld β δ τ) (id : Nat) (ok : Bool) : PullWorld β δ τ :=
  match world.fiber with
  | some ⟨fiber, .going record .installing, false⟩ =>
      if fiber = id then
        if ok then world.goOn ⟨fiber, .going record .installing, false⟩ record .clearing
        else world.update ⟨fiber, .going record .installing, false⟩ record (become .failed) .failing
      else world
  | _ => world

/-- `load`, of the transfer's record. -/
def load (world : PullWorld β δ τ) (expired : Bool) : PullWorld β δ τ :=
  match world.disk with
  | none => world
  | some record =>
      if record.state.finished && expired then { world with disk := none, part := none }
      else
        let loaded := { world with memory := some record }
        match record.state with
        | .installing => { loaded with
            memory := some (become .failed record), saving := [.load], loading := true }
        | .pulling | .verifying => loaded.run
        | _ => loaded

def next (digest : List β → δ) (world : PullWorld β δ τ) : PullEvent β δ τ → Option (PullWorld β δ τ)
  | .start id input => world.start id input
  | .resolved id found =>
      match world.calls.get id with
      | some (.start input .resolving) => some { world with
          calls := if found then world.calls.set id (.start input .sizing) else world.calls.delete id }
      | _ => none
  | .sized id =>
      match world.calls.get id with
      | some (.start input .sizing) => some { world with
          calls := world.calls.set id (.start input (.making world.partSize)) }
      | _ => none
  | .made id =>
      match world.calls.get id with
      | some (.start input (.making receivedBytes)) => some { world with
          memory := some ⟨input.target, input.sha256, input.size, receivedBytes, .pulling⟩
          calls := world.calls.set id (.start input .saving)
          saving := world.saving ++ [.call id] }
      | _ => none
  | .cancel id => world.cancel id
  | .interrupted id =>
      match world.calls.get id with
      | some (.cancel (.interrupting fiber)) =>
          if world.fiber.map PullFiber.id = some fiber then none
          else some { world with calls := world.calls.set id (.cancel .removing) }
      | _ => none
  | .removed id =>
      match world.calls.get id with
      | some (.cancel .removing) =>
          match world.memory with
          | none => some { world with part := none, calls := world.calls.delete id }
          | some record => some { world with
              part := none
              memory := some (become .cancelled record)
              calls := world.calls.set id (.cancel .saving)
              saving := world.saving ++ [.call id] }
      | _ => none
  | .write =>
      match world.writing, world.saving, world.memory with
      | none, _ :: _, some record => some { world with writing := some record }
      | _, _, _ => none
  | .wrote =>
      match world.writing, world.saving with
      | some record, saver :: rest =>
          some ({ world with disk := some record, writing := none, saving := rest }.goesOn saver)
      | _, _ => none
  | .unwind =>
      match world.fiber with
      | some fiber =>
          -- A save that has begun is done before its fiber ends.
          if fiber.interrupted ∧ ¬ (world.writing.isSome ∧ world.saving.head? = some .fiber) then
            some { world with
              fiber := none
              saving := world.saving.erase .fiber
              works := world.works.filter fun work => work.reading.isSome || work.fiber ≠ fiber.id }
          else none
      | none => none
  | .fiber event =>
      match world.fiber with
      | some fiber => if fiber.interrupted then none else world.fiberNext digest fiber fiber.run event
      | none => none
  | .grant fiber =>
      match world.works.find? fun work => work.fiber = fiber && work.reading.isNone with
      | some _ => some { world with
          works := world.works.map fun work =>
            if work.fiber = fiber ∧ work.reading.isNone then { work with reading := some world.part }
            else work }
      | none => none
  | .installed id ok =>
      match world.works.find? fun work => work.fiber = id && work.reading.isSome with
      | some work =>
          let done := { world with works := world.works.filter (·.fiber ≠ id) }
          match work.reading.join, ok with
          | some content, true =>
              let install : PullInstalled β δ := ⟨content, work.sha256, world.quiet⟩
              some ({ done with installed := world.installed ++ [install] }.worked id true)
          | none, true => none
          | _, false => some (done.worked id false)
      | none => none
  | .restart landed expired =>
      let disk := if landed then world.writing.or world.disk else world.disk
      some ({
        disk
        part := world.part
        nextFiber := world.nextFiber
        quiet := world.quiet
        installed := world.installed : PullWorld β δ τ }.load expired)

end PullWorld

/-- A Relay that knows nothing of the transfer yet, and what happens to it. -/
def pullSystem (digest : List β → δ) : System (PullWorld β δ τ) (PullEvent β δ τ) :=
  .ofFunction (· = {}) (PullWorld.next digest)

/-! ## The claims on a pull -/

/-- Work on a pull that a fiber does. -/
def PullState.active : PullState → Bool
  | .pulling | .verifying | .installing => true
  | _ => false

/-- A start that has stored its record and is about to run it, or a cancel. -/
def PullCall.settles : PullCall δ τ → Bool
  | .start _ .saving | .cancel _ => true
  | .start _ _ => false

/-- What was installed is what was granted, and none of it after a cancel had answered; a pull that is under way has its
fiber, or a call that is about to give it one or to end it; and the next bytes go where the part ends. -/
structure PullWorld.Upholds (digest : List β → δ) (world : PullWorld β δ τ) : Prop where
  verified : ∀ install ∈ world.installed, digest install.content = install.sha256
  quiet : ∀ install ∈ world.installed, install.quiet = false
  running : world.loading = false → ∀ record, (world.memory = some record ∨ world.disk = some record) →
    record.state.active = true →
      world.fiber.isSome = true ∨ ∃ id call, world.calls.get id = some call ∧ call.settles = true
  appended : ∀ fiber record received, world.fiber = some fiber →
    fiber.run = .going record (.appending received) → world.partSize = received

end Kiln.Relay
