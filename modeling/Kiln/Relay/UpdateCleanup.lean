import Kiln.Relay.ContainerUpdates

/-!
# Cleaning up after updates

The records of updates and their helpers (`apps/relay/src/system-updates.ts:505-677`,
`updater.ts:42-101`) with the sweep of Docker cleanup (`docker-cleanup.ts:754-855`), over the programs
of `replaceContainerEffect`: each Docker call of a helper, and each removal of a pass, is a step of its own.

Operations are numbered as they begin. An operation's record is there before its helper works on it, and none
begins while one is recorded as running for its container (`acquireTargetLockEffect`). The Relay's own records
wait for a pass that is under way (`recordOperations`); the installer's, which are a batch of their own, don't.
What a pass asks of labels, and of when a container stopped, is told by its event. A removal that fails removes
nothing, and a helper that can't write its outcome is one that was killed.
-/

namespace Kiln.Relay
open Kiln.Lib

/-! ## Names -/

/-- What the helper renames the container to that it sets aside. -/
def backupName (targetContainer : String) (now : Nat) : String :=
  targetContainer ++ "-kiln-backup-" ++ now.repr

/-- A name's digits at its end, and what is before them, reversed. -/
def splitDigits (name : String) : List Char × List Char :=
  name.toList.reverse.span Char.isDigit

/-- Whether a name ends in `-kiln-backup-` and digits. -/
def looksAside (name : String) : Bool :=
  !(splitDigits name).1.isEmpty && "-kiln-backup-".toList.reverse.isPrefixOf (splitDigits name).2

/-- `UPDATE_BACKUP_NAME`: the name that a set-aside container had. -/
def originalName (name : String) : Option String :=
  let original := ((splitDigits name).2.drop 13).reverse
  if looksAside name && !original.isEmpty &&
      original.all (fun c => c ≠ '\n' && c ≠ '\r' && c ≠ Char.ofNat 0x2028 && c ≠ Char.ofNat 0x2029) then
    some (String.ofList original)
  else none

/-! ## The state -/

/-- The `status` of an `UpdateOperation`. -/
inductive UpdateStatus where
  | running
  | succeeded
  | failed
  deriving DecidableEq, Repr

/-- An `UpdateOperation`, as far as helpers and cleanup read it. -/
structure UpdateOperation where
  batchId : Nat
  targetContainer : String
  requestedImage : String
  targetReference : String
  status : UpdateStatus
  deriving DecidableEq, Repr

/-- Something that a pass is about to remove. -/
inductive SweptLeftover where
  | helper (batchId : Nat)
  | backup (container : Nat)
  deriving DecidableEq, Repr

/-- A pass of `#sweepUpdates`: it has read the records, or is removing what it found. -/
inductive SweepPass where
  | read (finishedHelpers : List Nat) (targets : List String)
  | removing (leftovers : List SweptLeftover)
  deriving DecidableEq, Repr

/-- Docker, the records by operation, the helpers with whether they run, the programs of the helpers, and the pass that
is under way. `notes` is what each operation's helper noted, and `asideBy` which operation set a container aside:
nothing but the model reads them. -/
structure UpdatesState where
  docker : Docker
  records : OrderedMap Nat UpdateOperation := .empty
  helpers : OrderedMap Nat Bool := .empty
  programs : Nat → Option (Update (Except UpdateError Unit)) := fun _ => none
  notes : Nat → List UpdateNote := fun _ => []
  pass : Option SweepPass := none
  asideBy : Nat → Option Nat := fun _ => none

/-- How a call of a helper comes out. -/
inductive CallOutcome where
  | applied
  | failedBefore (message : String)
  | failedAfter (message : String)
  | now (now : Nat)
  | randomLabel (label : String)

inductive UpdatesEvent where
  | turns (container : Nat) (running : Bool) (health : Option HealthStatus)
  | start (operation : Nat) (record : UpdateOperation)
  | launch (batchId : Nat)
  | begins (operation now : Nat)
  | call (operation : Nat) (outcome : CallOutcome)
  | finishes (operation : Nat)
  | stops (batchId : Nat)
  | stale (operation : Nat)
  | passReads
  | passLists (ours longAgo helperLongAgo : Nat → Bool)
  | passRemoves
  | passSkips

namespace UpdatesState

/-- An operation that is recorded as running. -/
def updating (s : UpdatesState) : Bool :=
  s.records.entries.any (·.2.status = .running)

/-- The batches whose operations have all ended. -/
def finishedHelpers (s : UpdatesState) : List Nat :=
  (s.records.entries.map (·.2.batchId)).filter fun batchId =>
    s.records.entries.all fun entry => entry.2.batchId ≠ batchId || entry.2.status ≠ .running

/-- The containers of updates that have ended. -/
def targets (s : UpdatesState) : List String :=
  (s.records.entries.filter (·.2.status ≠ .running)).map (·.2.targetContainer)

/-- What `#sweepUpdates` finds to remove, with what it asks of labels and of when a container stopped. -/
def leftovers (s : UpdatesState) (finishedHelpers : List Nat) (targets : List String)
    (ours longAgo helperLongAgo : Nat → Bool) : List SweptLeftover :=
  ((s.helpers.entries.filter fun helper => helper.1 ∈ finishedHelpers || helperLongAgo helper.1).map
      fun helper => .helper helper.1) ++
    ((s.docker.containers.entries.filter fun entry =>
      !entry.2.running && match originalName entry.2.name with
        | none => false
        | some original =>
          (s.docker.find (.name original)).any (·.2.running) && ours entry.1 &&
            (original ∈ targets || longAgo entry.1)).map
      fun entry => .backup entry.1)

/-- An operation's own container is called that. -/
def isTarget (s : UpdatesState) (operation : Nat) (name : String) : Bool :=
  (s.records.get operation).any (·.targetContainer = name)

/-- Which operation has set a container aside, once a call was applied for `operation`: what it renames is set aside by
it, unless it gets its target's name back. -/
def setsAside (s : UpdatesState) (operation : Nat) : DockerCall → Nat → Option Nat
  | .renameContainer ref name, container =>
    match (s.docker.apply (.renameContainer ref name)).1, s.docker.find ref with
    | .ok _, some found =>
      if container = found.1 then (if s.isTarget operation name then none else some operation)
      else s.asideBy container
    | _, _ => s.asideBy container
  | .createContainer _ _, container => if container = s.docker.created then none else s.asideBy container
  | _, container => s.asideBy container

/-- Makes the next call of an operation's helper, which goes on with its answer. -/
def calls (s : UpdatesState) (operation : Nat) : (i : UpdateCall) →
    (i.answer → Update (Except UpdateError Unit)) → CallOutcome → Option UpdatesState
  | .docker call, rest, .applied =>
    some { s with
      docker := (s.docker.apply call).2
      asideBy := s.setsAside operation call
      programs := Function.update s.programs operation (some (rest (s.docker.apply call).1)) }
  | .docker _, rest, .failedBefore message =>
    some { s with programs := Function.update s.programs operation (some (rest (.error ⟨false, message⟩))) }
  | .docker call, rest, .failedAfter message =>
    some { s with
      docker := (s.docker.apply call).2
      asideBy := s.setsAside operation call
      programs := Function.update s.programs operation (some (rest (.error ⟨false, message⟩))) }
  | .now, rest, .now now =>
    some { s with programs := Function.update s.programs operation (some (rest now)) }
  | .randomLabel, rest, .randomLabel label =>
    some { s with programs := Function.update s.programs operation (some (rest label)) }
  | .note entry, rest, .applied =>
    some { s with
      notes := Function.update s.notes operation (s.notes operation ++ [entry])
      programs := Function.update s.programs operation (some (rest ())) }
  | _, _, _ => none

/-- `runOperationEffect`, but for the record of its outcome. -/
def runOperation (record : UpdateOperation) (now : Nat) : Update (Except UpdateError Unit) :=
  Update.retryContainerReplacement (Update.replaceContainer
      { backupName := backupName record.targetContainer now
        targetContainer := record.targetContainer
        targetImage := record.requestedImage
        targetReference := record.targetReference })
    2

/-- No record, helper or pass knows the batch. -/
def newBatch (s : UpdatesState) (batchId : Nat) : Bool :=
  s.helpers.get batchId = none && (s.records.entries.all fun entry => entry.2.batchId ≠ batchId) &&
    match s.pass with
    | some (.removing leftovers) => .helper batchId ∉ leftovers
    | _ => true

/-- Records how an operation ended. -/
def ends (s : UpdatesState) (operation : Nat) (record : UpdateOperation) (status : UpdateStatus) : UpdatesState :=
  { s with
    records := s.records.set operation { record with status }
    programs := Function.update s.programs operation none }

/-- What a removal makes of the state: Docker refuses to remove a container that runs. -/
def removes (s : UpdatesState) : SweptLeftover → UpdatesState
  | .helper batchId =>
    if s.helpers.get batchId = some true then s else { s with helpers := s.helpers.delete batchId }
  | .backup container =>
    if (s.docker.get container).any (·.running) then s else { s with docker := s.docker.remove container }

def next (s : UpdatesState) : UpdatesEvent → Option UpdatesState
  | .turns container running health =>
    some { s with docker := (s.docker.modify (.id container) (fun c => { c with running, health }) fun _ => rfl).2 }
  | .start operation record =>
    if (s.pass.isNone || s.newBatch record.batchId) && record.status = .running &&
        s.records.entries.all fun entry => entry.1 < operation &&
          (entry.2.targetContainer ≠ record.targetContainer || entry.2.status ≠ .running) then
      some { s with records := s.records.set operation record }
    else none
  | .launch batchId =>
    if s.helpers.get batchId = some true then none
    else some { s with helpers := s.helpers.set batchId true }
  | .begins operation now =>
    match s.records.get operation, s.programs operation with
    | some record, none =>
      if record.status = .running && s.helpers.get record.batchId = some true then
        some { s with programs := Function.update s.programs operation (some (runOperation record now)) }
      else none
    | _, _ => none
  | .call operation outcome =>
    match s.programs operation with
    | some (.call i rest) => s.calls operation i rest outcome
    | _ => none
  | .finishes operation =>
    match s.records.get operation, s.programs operation with
    | some record, some (.done (.ok _)) => some (s.ends operation record .succeeded)
    | some record, some (.done (.error _)) => some (s.ends operation record .failed)
    | _, _ => none
  | .stops batchId =>
    if s.helpers.get batchId = some true then
      some { s with
        helpers := s.helpers.set batchId false
        programs := fun operation =>
          if (s.records.get operation).any (·.batchId = batchId) then none else s.programs operation }
    else none
  | .stale operation =>
    match s.records.get operation with
    | some record =>
      if record.status = .running && s.helpers.get record.batchId ≠ some true then
        some (s.ends operation record .failed)
      else none
    | none => none
  | .passReads =>
    if s.pass.isSome || s.updating then none
    else some { s with pass := some (.read s.finishedHelpers s.targets) }
  | .passLists ours longAgo helperLongAgo =>
    match s.pass with
    | some (.read finishedHelpers targets) =>
      if s.helpers.entries.any (·.2) then some { s with pass := none }
      else some { s with pass := some (.removing (s.leftovers finishedHelpers targets ours longAgo helperLongAgo)) }
    | _ => none
  | .passRemoves =>
    match s.pass with
    | some (.removing (leftover :: rest)) => some { s.removes leftover with pass := some (.removing rest) }
    | _ => none
  | .passSkips =>
    match s.pass with
    | some (.removing (_ :: rest)) => some { s with pass := some (.removing rest) }
    | some (.removing []) => some { s with pass := none }
    | _ => none

/-! ## What a pass may remove -/

/-- In that operation's update or a later one of the same container, a replacement under its name was found healthy. -/
def HealthySince (s : UpdatesState) (operation : Nat) : Prop :=
  ∃ record later record' id c, s.records.get operation = some record ∧ operation ≤ later ∧
    s.records.get later = some record' ∧ record'.targetContainer = record.targetContainer ∧
    UpdateNote.healthy id c ∈ s.notes later ∧ c.name = record.targetContainer

/-- What is removed is needed no more. -/
def Spare (s : UpdatesState) : SweptLeftover → Prop
  | .backup container => ∀ operation, s.asideBy container = some operation → s.HealthySince operation
  | .helper batchId => ∀ operation record, s.records.get operation = some record → record.batchId = batchId →
      record.status ≠ .running

/-- Where a pass removes something, it is spare. -/
def SweepsSpare (s : UpdatesState) : Prop :=
  ∀ leftover rest, s.pass = some (.removing (leftover :: rest)) → s.Spare leftover

/-- An operation's set-aside container is back, or gone, or nothing is left under its name. -/
def leavesNothingElse (s : UpdatesState) (operation : Nat) (record : UpdateOperation) : Bool :=
  s.docker.containers.entries.all fun entry =>
    s.asideBy entry.1 ≠ some operation || (s.docker.find (.name record.targetContainer)).isNone

/-- What an operation's helper renames next isn't about to be removed by a pass, and doesn't get the name of another
update's container. -/
def renamesApart (s : UpdatesState) (operation : Nat) : Bool :=
  match s.programs operation with
  | some (.call (.docker (.renameContainer ref name)) _) =>
    (s.records.entries.all fun entry => s.isTarget operation entry.2.targetContainer ||
        entry.2.targetContainer ≠ name) &&
      match s.pass with
      | some (.removing leftovers) => (s.docker.find ref).all fun found => .backup found.1 ∉ leftovers
      | _ => true
  | _ => true

/-- Where an update is recorded as failed, the container it set aside is back, or gone, or nothing is left under its
name; helpers keep to containers and names of their own; and while a pass has read the records and not yet listed the
containers, no helper stops before its operations have ended. -/
def orderly (s : UpdatesState) : UpdatesEvent → Bool
  | .finishes operation =>
    match s.records.get operation, s.programs operation with
    | some record, some (.done (.error _)) => s.leavesNothingElse operation record
    | _, _ => true
  | .stale operation => (s.records.get operation).all (s.leavesNothingElse operation)
  | .call operation _ => s.renamesApart operation
  | .stops batchId =>
    match s.pass with
    | some (.read _ _) => s.records.entries.all fun entry => entry.2.batchId ≠ batchId || entry.2.status ≠ .running
    | _ => true
  | _ => true

end UpdatesState

/-- The runs of updates and passes over a Docker host. -/
def updatesSystem (docker : Docker) : System UpdatesState UpdatesEvent :=
  .ofFunction (· = { docker }) UpdatesState.next

end Kiln.Relay
