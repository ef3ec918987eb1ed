import Kiln.Contracts.ScheduleRuns
import Kiln.Lib.Transition
import Kiln.Relay.ScheduleState

/-!
# When a Relay launches its schedules

The scheduler's loop (`apps/relay/src/schedules.ts:140-317`) over the tables of schedules and of runs
(`apps/relay/src/effect/schedule-state.ts:104-173`, `:293-410`). What is serialized by the scheduler's
semaphore is here one thing at a time; runs that were launched go on beside it. Each statement or
transaction is a step, and is made whole or not at all.

A run's ID is the pair it is digested from, so IDs are taken to be collision free. How rows of the same
end are ordered (`run_id DESC`) is a parameter, as is the cron parser. A run's other columns are left
out, and a schedule's are those of `ScheduleTables`.
-/

namespace Kiln.Relay
open Kiln.Lib Kiln.Contracts

/-- What a run's ID is digested from: its schedule and when it was scheduled. -/
abbrev RunId := String × Nat

/-- A row of `relay_schedule_runs`. -/
structure ScheduleRunRow where
  revision : Nat
  startedAt : Nat
  finishedAt : Option Nat
  status : ScheduleRunStatus
  deriving DecidableEq, Repr

/-- `historyLimit` (`schedule-state.ts:57`). -/
def historyLimit : Nat := 1000

/-- `scheduleBatchSize` (`schedules.ts:64`). -/
def scheduleBatchSize : Nat := 32

/-- Code outside the scheduler: the cron parser, which throws on what it can't read, and the order of run IDs. -/
structure ScheduleClock where
  nextScheduleOccurrence : String → Nat → Option Nat
  before : RunId → RunId → Bool

/-- An occurrence that `claimDue` inserted a run for. -/
structure ScheduleOccurrence where
  definition : RelayScheduleProjection
  run : RunId
  status : ScheduleRunStatus
  deriving DecidableEq, Repr

/-- What `claimDue` read and has done about it. What it skipped, a run being there, is noted by nothing
    but the model. -/
structure ScheduleBatch where
  rows : List (String × ScheduleRow)
  left : List (String × ScheduleRow)
  occurrences : List ScheduleOccurrence := []
  failed : Bool := false
  swept : Bool := false
  skipped : List RunId := []
  deriving DecidableEq, Repr

/-- A tick under way: the time it began, how many runs it may still start, and the rows it claims. -/
structure ScheduleTick where
  now : Nat
  available : Nat
  batch : Option ScheduleBatch := none
  deriving DecidableEq, Repr

/-- `ScheduleManager`, as a process has it. `starting` is a run that `runNow` has written and not launched yet. -/
structure ScheduleManager where
  bootAt : Nat
  nextRunAt : Option (Option Nat) := none
  nextClaimAttemptAt : Nat := 0
  claimFailures : Nat := 0
  fibers : List RunId := []
  tick : Option ScheduleTick := none
  starting : Option RunId := none
  deriving DecidableEq, Repr

/-- The Relay's tables and its process, and what only the model keeps: every launch there was, every row that was
pruned, and every schedule whose removal was logged. -/
structure ScheduleWorld where
  tables : ScheduleTables
  runs : OrderedMap RunId ScheduleRunRow
  manager : Option ScheduleManager := none
  launched : List RunId := []
  pruned : List RunId := []
  logged : List String := []
  deriving DecidableEq

/-! ## The tables -/

/-- A run that ended after another, or is listed before it. -/
def endsLater (clock : ScheduleClock) (a b : RunId × ScheduleRunRow) : Bool :=
  let left := a.2.finishedAt.getD 0
  let right := b.2.finishedAt.getD 0
  right < left || left = right && clock.before a.1 b.1

/-- Whether history keeps a row: it is running, or fewer than the limit ended after it. -/
def inHistory (clock : ScheduleClock) (runs : OrderedMap RunId ScheduleRunRow) (run : RunId)
    (row : ScheduleRunRow) : Bool :=
  row.status = .running ||
    (runs.entries.filter fun other =>
      other.2.status ≠ .running && endsLater clock other (run, row)).length < historyLimit

namespace ScheduleWorld

/-- `pruneRuns` (`schedule-state.ts:129-137`). -/
def pruneRuns (clock : ScheduleClock) (world : ScheduleWorld) : ScheduleWorld :=
  { world with
    runs := world.runs.filter (inHistory clock world.runs)
    pruned := world.pruned ++ (world.runs.entries.filter fun entry =>
      !inHistory clock world.runs entry.1 entry.2).map Prod.fst }

/-- `interruptRuns` (`schedule-state.ts:403-409`). -/
def interruptRuns (world : ScheduleWorld) (now : Nat) : ScheduleWorld :=
  { world with
    runs := world.runs.mapValues fun _ row =>
      if row.status = .running then { row with status := .interrupted, finishedAt := some now }
      else row }

/-- `MIN(next_run_at)` of what is enabled (`schedule-state.ts:176-182`). -/
def nextRunAt (world : ScheduleWorld) : Option Nat :=
  (world.tables.schedules.entries.filterMap fun entry =>
    if entry.2.enabled then entry.2.nextRunAt else none).min?

/-- Whether a schedule is enabled and due. -/
def isDue (now : Nat) (row : ScheduleRow) : Bool :=
  row.enabled && row.nextRunAt.any (· ≤ now)

/-- `ORDER BY next_run_at, schedule_id`. -/
def dueFirst (a b : String × ScheduleRow) : Bool :=
  let left := a.2.nextRunAt.getD 0
  let right := b.2.nextRunAt.getD 0
  left < right || left = right && decide (a.1 ≤ b.1)

/-- The rows `claimDue` reads (`schedule-state.ts:296-299`). -/
def dueRows (world : ScheduleWorld) (now limit : Nat) : List (String × ScheduleRow) :=
  ((world.tables.schedules.entries.filter (isDue now ·.2)).mergeSort dueFirst).take limit

/-- A schedule's `next_run_at` is set. -/
def setNextRunAt (world : ScheduleWorld) (id : String) (nextRunAt : Nat) : ScheduleWorld :=
  match world.tables.schedules.get id with
  | none => world
  | some row => { world with tables := { world.tables with
      schedules := world.tables.schedules.set id { row with nextRunAt := some nextRunAt } } }

/-- `claim` (`schedule-state.ts:138-173`), and whether it inserted a run. -/
def claim (world : ScheduleWorld) (id : String) (row : ScheduleRow) (nextRunAt now bootAt : Nat) :
    ScheduleWorld × Option (RunId × ScheduleRunStatus) :=
  let scheduledAt := row.nextRunAt.getD 0
  let missed := scheduledAt ≤ bootAt
  let status : ScheduleRunStatus := if missed then .missed else .running
  let run : RunId := (id, scheduledAt)
  if world.runs.has run then (world.setNextRunAt id nextRunAt, none)
  else
    let record : ScheduleRunRow := ⟨row.revision, now, if missed then some now else none, status⟩
    let inserted := { world with runs := world.runs.set run record }
    (inserted.setNextRunAt id nextRunAt, some (run, status))

/-- One row of `claimDue`'s loop (`schedule-state.ts:317-352`), whose statement is made or fails. -/
def claimRow (clock : ScheduleClock) (world : ScheduleWorld) (batch : ScheduleBatch)
    (entry : String × ScheduleRow) (now bootAt : Nat) (made : Bool) :
    ScheduleWorld × ScheduleBatch :=
  if !made then (world, { batch with failed := true })
  else
    let occurrence := do
      let definition ← entry.2.definition.read
      let nextRunAt ← clock.nextScheduleOccurrence definition.cron now
      some (definition, nextRunAt)
    match occurrence with
    | none =>
        ({ world with
            tables := { world.tables with schedules := world.tables.schedules.delete entry.1 }
            logged := world.logged ++ [entry.1] }, batch)
    | some (definition, nextRunAt) =>
        match world.claim entry.1 entry.2 nextRunAt now bootAt with
        | (claimed, some (run, status)) =>
            (claimed, { batch with
              occurrences := batch.occurrences ++ [⟨definition, run, status⟩] })
        | (claimed, none) =>
            (claimed, { batch with skipped := batch.skipped ++ [(entry.1, entry.2.nextRunAt.getD 0)] })

/-- When `runNow` schedules a run (`schedule-state.ts:381-386`). -/
def manualTime (world : ScheduleWorld) (id : String) (row : ScheduleRow) (now : Nat) : Nat :=
  let latest := ((world.runs.entries.filter (·.1.1 = id)).map (·.1.2)).max?.getD 0
  let scheduledAt := max now (latest + 1)
  if some scheduledAt = row.nextRunAt then scheduledAt + 1 else scheduledAt

end ScheduleWorld

/-! ## The scheduler -/

namespace ScheduleManager

/-- `#claimFailed` (`schedules.ts:243-252`). -/
def claimFailed (manager : ScheduleManager) (now : Nat) : ScheduleManager :=
  { manager with
    claimFailures := manager.claimFailures + 1
    nextClaimAttemptAt := now + min 60000 (1000 * 2 ^ min manager.claimFailures 6)
    tick := none }

/-- The head of a tick's loop: it claims as many as may run, or ends. -/
def claimMore (manager : ScheduleManager) (now : Nat) : ScheduleManager :=
  let available := scheduleBatchSize - manager.fibers.length
  if available = 0 then { manager with tick := none }
  else { manager with tick := some ⟨now, available, none⟩ }

/-- Nothing holds the semaphore. -/
def free (manager : ScheduleManager) : Bool :=
  manager.tick.isNone && manager.starting.isNone

/-- What a tick does with what `next_run_at` answers, or had answered. -/
def tickAt (manager : ScheduleManager) (now : Nat) (nextRunAt : Option Nat) : ScheduleManager :=
  match nextRunAt.filter (· ≤ now) with
  | none => { manager with nextRunAt := some nextRunAt, claimFailures := 0 }
  | some _ => { manager with nextRunAt := none }.claimMore now

end ScheduleManager

inductive ScheduleEvent where
  /-- `apply`, its next run computed as it was called. -/
  | apply (definition : RelayScheduleProjection) (calledAt : Nat)
  | remove (scheduleId : String) (revision : Nat)
  | runNow (scheduleId : String) (revision now : Nat)
  /-- `runNow` launches what it wrote. -/
  | start
  /-- A tick begins; what it reads first may fail. -/
  | tick (now : Nat) (reads : Bool)
  /-- `claimDue` reads, or fails. -/
  | select (reads : Bool) (now : Nat)
  /-- Its next row is claimed, or that fails. -/
  | claim (made : Bool)
  /-- History is pruned for what was missed, or that fails. -/
  | sweep (made : Bool)
  /-- What was claimed is launched. -/
  | launch (now : Nat)
  /-- A run's end is written. -/
  | complete (run : RunId) (status : ScheduleRunStatus) (now : Nat)
  /-- A run ends with nothing written. -/
  | die (run : RunId)
  | crash
  | boot (now : Nat)
  deriving DecidableEq, Repr

/-- How a run may end (`schedules.ts:507-523`). -/
def runEnds : ScheduleRunStatus → Bool
  | .succeeded | .partial' | .failed | .noop => true
  | .running | .interrupted | .missed => false

namespace ScheduleWorld

/-- The occurrences a batch launches. -/
def running (occurrences : List ScheduleOccurrence) : List RunId :=
  (occurrences.filter (·.status = .running)).map ScheduleOccurrence.run

/-- `apply` (`schedules.ts:186-198`), its next run computed before its turn. -/
def applyNext (clock : ScheduleClock) (world : ScheduleWorld) (manager : ScheduleManager)
    (definition : RelayScheduleProjection) (calledAt : Nat) : Option ScheduleWorld :=
  let nextRunAt := if definition.enabled then
    (clock.nextScheduleOccurrence definition.cron calledAt).map some else some none
  nextRunAt.bind fun nextRunAt => (world.tables.apply definition nextRunAt).map fun applied =>
    { world with tables := applied.1, manager := some { manager with nextRunAt := none } }

/-- `remove` (`schedules.ts:200-211`). -/
def removeNext (world : ScheduleWorld) (manager : ScheduleManager) (scheduleId : String)
    (revision : Nat) : ScheduleWorld :=
  { world with tables := (world.tables.remove scheduleId revision).1,
               manager := some { manager with nextRunAt := none } }

/-- `runNow` (`schedules.ts:213-235`), where it writes a run. -/
def runNowNext (world : ScheduleWorld) (manager : ScheduleManager) (scheduleId : String)
    (revision now : Nat) : Option ScheduleWorld :=
  if scheduleBatchSize ≤ manager.fibers.length then none
  else
    match world.tables.schedules.get scheduleId with
    | none => none
    | some row =>
        if row.revision = revision ∧ row.definition.read.isSome = true then
          let run : RunId := (scheduleId, world.manualTime scheduleId row now)
          some { world with
            runs := world.runs.set run ⟨row.revision, now, none, .running⟩
            manager := some { manager with starting := some run } }
        else none

/-- `#tick`, up to its loop (`schedules.ts:254-266`). -/
def tickNext (world : ScheduleWorld) (manager : ScheduleManager) (now : Nat) (reads : Bool) :
    ScheduleWorld :=
  if now < manager.nextClaimAttemptAt then world
  else
    match manager.nextRunAt with
    | some nextRunAt => { world with manager := some (manager.tickAt now nextRunAt) }
    | none =>
        if reads then { world with manager := some (manager.tickAt now world.nextRunAt) }
        else { world with manager := some (manager.claimFailed now) }

/-- `claimDue` reads its rows. -/
def selectNext (world : ScheduleWorld) (manager : ScheduleManager) (tick : ScheduleTick)
    (reads : Bool) (now : Nat) : ScheduleWorld :=
  if reads then
    let rows := world.dueRows tick.now tick.available
    { world with manager := some { manager with
      tick := some { tick with batch := some { rows, left := rows } } } }
  else { world with manager := some (manager.claimFailed now) }

/-- It claims a row. -/
def claimNext (clock : ScheduleClock) (world : ScheduleWorld) (manager : ScheduleManager)
    (tick : ScheduleTick) (batch : ScheduleBatch) (made : Bool) : Option ScheduleWorld :=
  match batch.left with
  | [] => none
  | entry :: left =>
      let claimed := world.claimRow clock { batch with left } entry tick.now manager.bootAt made
      some { claimed.1 with manager := some { manager with
        tick := some { tick with batch := some claimed.2 } } }

/-- Something was missed, and history isn't pruned for it yet. -/
def toSweep (batch : ScheduleBatch) : Bool :=
  !batch.swept && batch.occurrences.any (·.status = .missed)

/-- `pruneRuns` of `claimDue` (`schedule-state.ts:353-355`). -/
def sweepNext (clock : ScheduleClock) (world : ScheduleWorld) (manager : ScheduleManager)
    (tick : ScheduleTick) (batch : ScheduleBatch) (made : Bool) : ScheduleWorld :=
  let swept := if made then world.pruneRuns clock else world
  { swept with manager := some { manager with
    tick := some { tick with batch := some { batch with
      swept := true, failed := batch.failed || !made } } } }

/-- What a tick does with what `claimDue` answers (`schedules.ts:279-290`). -/
def launchNext (world : ScheduleWorld) (manager : ScheduleManager) (tick : ScheduleTick)
    (batch : ScheduleBatch) (now : Nat) : ScheduleWorld :=
  let runs := running batch.occurrences
  let launching := { manager with fibers := manager.fibers ++ runs }
  { world with
    launched := world.launched ++ runs
    manager := some (
      if batch.failed then launching.claimFailed now
      else if batch.rows.length = tick.available then
        { launching with claimFailures := 0 }.claimMore tick.now
      else { launching with claimFailures := 0, tick := none }) }

/-- `completeRun` (`schedule-state.ts:423-434`). -/
def completeNext (clock : ScheduleClock) (world : ScheduleWorld) (manager : ScheduleManager)
    (run : RunId) (status : ScheduleRunStatus) (now : Nat) : Option ScheduleWorld :=
  (world.runs.get run).map fun row =>
    let record : ScheduleRunRow := { row with status, finishedAt := some now }
    let written := { world with runs := world.runs.set run record }
    { written.pruneRuns clock with
      manager := some { manager with fibers := manager.fibers.erase run } }

/-- A step of a process that is up. -/
def managerNext (clock : ScheduleClock) (world : ScheduleWorld) (manager : ScheduleManager) :
    ScheduleEvent → Option ScheduleWorld
  | .apply definition calledAt =>
      if manager.free then world.applyNext clock manager definition calledAt else none
  | .remove scheduleId revision =>
      if manager.free then some (world.removeNext manager scheduleId revision) else none
  | .runNow scheduleId revision now =>
      if manager.free then world.runNowNext manager scheduleId revision now else none
  | .start => manager.starting.map fun run =>
      { world with
        launched := world.launched ++ [run]
        manager := some { manager with fibers := manager.fibers ++ [run], starting := none } }
  | .tick now reads =>
      if manager.free then some (world.tickNext manager now reads) else none
  | .select reads now =>
      match manager.tick with
      | some ⟨began, available, none⟩ =>
          some (world.selectNext manager ⟨began, available, none⟩ reads now)
      | _ => none
  | .claim made =>
      match manager.tick with
      | some ⟨began, available, some batch⟩ =>
          world.claimNext clock manager ⟨began, available, some batch⟩ batch made
      | _ => none
  | .sweep made =>
      match manager.tick with
      | some ⟨began, available, some batch⟩ =>
          if batch.left = [] ∧ toSweep batch = true then
            some (world.sweepNext clock manager ⟨began, available, some batch⟩ batch made)
          else none
      | _ => none
  | .launch now =>
      match manager.tick with
      | some ⟨began, available, some batch⟩ =>
          if batch.left = [] ∧ toSweep batch = false then
            some (world.launchNext manager ⟨began, available, some batch⟩ batch now)
          else none
      | _ => none
  | .complete run status now =>
      if run ∈ manager.fibers ∧ runEnds status = true then
        world.completeNext clock manager run status now
      else none
  | .die run =>
      if run ∈ manager.fibers then
        some { world with manager := some { manager with fibers := manager.fibers.erase run } }
      else none
  | .crash => some { world with manager := none }
  | .boot _ => none

def next (clock : ScheduleClock) (world : ScheduleWorld) (event : ScheduleEvent) :
    Option ScheduleWorld :=
  match world.manager with
  | some manager => world.managerNext clock manager event
  | none =>
      match event with
      -- Nothing runs before what was running is interrupted.
      | .boot now => some { world.interruptRuns now with manager := some { bootAt := now } }
      | _ => none

end ScheduleWorld

/-- The runs of a scheduler over tables as it first finds them. -/
def scheduleLaunchSystem (clock : ScheduleClock) : System ScheduleWorld ScheduleEvent :=
  .ofFunction (fun world => world.manager = none ∧ world.launched = [] ∧ world.pruned = [] ∧
    world.logged = []) (ScheduleWorld.next clock)

end Kiln.Relay
