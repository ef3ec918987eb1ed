import Kiln.Relay.ScheduleTargets
import Kiln.Lib.Transition

/-!
# An occurrence of a schedule

How a Relay executes an occurrence (`#executeOccurrence`, `apps/relay/src/schedules.ts:319-566`): its
targets are checked, then each action runs on every target, at most so many at once, and then what
happened is recorded. A step is what runs between two `await`s, of the occurrence or of one target.
Progress is written by one target at a time, and what it writes is taken as its turn comes.

Where the occurrence is cut off, by its signal or by something thrown, what it began on its targets
goes on by itself. A crash ends it all; what it wrote stays.
-/

namespace Kiln.Relay
open Kiln.Lib Kiln.Contracts Kiln.Operations

/-- `targetExecutionConcurrency`. -/
def targetExecutionConcurrency : Nat := 8

/-- Where the occurrence itself is. -/
inductive OccurrenceStage where
  | checking
  | acting (action : RelayScheduleAction) (rest : List RelayScheduleAction)
  /-- Its result is ready to write. -/
  | completing (run : ScheduleRun)
  | completed
  /-- It threw. -/
  | rejected
  deriving DecidableEq

/-- An occurrence under way, with the progress it wrote last and the result it wrote. -/
structure Occurrence where
  id : OccurrenceId
  startedAt : Nat
  fibers : List TargetFiber
  stage : OccurrenceStage := .checking
  sequenceAttempts : List ScheduleActionAttempt := []
  sequenceFailure : Option String := none
  /-- What it does on its targets is no longer waited for. -/
  cut : Bool := false
  crashed : Bool := false
  progress : Option ScheduleRun := none
  result : Option ScheduleRun := none
  /-- The commands that were sent to a container, by target and action. -/
  sent : List (Nat × String) := []

/-- What may happen of an occurrence. Targets are told by their place. -/
inductive OccurrenceEvent where
  | check (i : Nat) (found : Except (Option String) Bool)
  | begin (i : Nat) (now : Nat) (paused : Bool)
  /-- A target's turn to record progress comes, and it takes what it will write. -/
  | take (i : Nat) (now : Nat)
  /-- What it wrote is stored, or isn't. -/
  | write (i : Nat) (now : Nat) (stored : Bool)
  | send (i : Nat)
  | settle (i : Nat) (result : ExecutionResult)
  | append (i : Nat) (now : Nat)
  /-- A wait ends, and why if it failed. -/
  | wait (startedAt now : Nat) (failure : Option (Option String))
  /-- The targets are done with what they were at. -/
  | advance (now : Nat)
  /-- The result is stored, or isn't. -/
  | complete (stored : Bool)
  /-- It ends for what a target threw, or for its signal. -/
  | reject
  | abort
  | crash

namespace Turn

def isWaiting : Turn → Bool
  | .waiting => true
  | _ => false

def isEnded : Turn → Bool
  | .ended => true
  | _ => false

theorem eq_of_isEnded {turn : Turn} (ended : turn.isEnded = true) : turn = .ended := by
  cases turn <;> first | rfl | exact nomatch ended

def isThrown : Turn → Bool
  | .thrown => true
  | _ => false

/-- What a target that holds the permit to write progress writes. -/
def writing : Turn → Option ScheduleRun
  | .marking _ _ _ (.writing run) | .reporting (.writing run) => some run
  | _ => none

/-- A target with work begun on it. -/
def isRunning : Turn → Bool
  | .waiting | .ended | .thrown => false
  | _ => true

end Turn

namespace TargetFiber

/-- A target is checked if no other occurrence holds it (`schedules.ts:401-418`). -/
def toCheck (state : TargetExecutionState) : TargetFiber :=
  ⟨state, if state.activeKey.isNone then .ended else .waiting⟩

/-- An action is next. -/
def toAct (fiber : TargetFiber) : TargetFiber :=
  ⟨fiber.state, .waiting⟩

end TargetFiber

/-- The state of each target as an occurrence begins (`schedules.ts:325-346`), by the targets that
    are active already. -/
def targetStates (now : Nat) : List String → List ScheduleTarget → List TargetExecutionState
  | _, [] => []
  | active, target :: rest =>
      let key := target.kind.name ++ ":" ++ target.id
      if active.contains key then
        { activeKey := none, startedAt := now, target } :: targetStates now active rest
      else
        { activeKey := some key, startedAt := now, target } :: targetStates now (key :: active) rest

namespace Occurrence

/-- An occurrence as it begins. -/
def start (id : OccurrenceId) (now : Nat) (active : List String) : Occurrence where
  id := id
  startedAt := now
  fibers := (targetStates now active id.schedule.targets).map .toCheck

/-- The occurrence's ID (`schedules.ts:348-352`). -/
def runId (id : OccurrenceId) : ScheduleStableId :=
  ⟨[id.schedule.id, toString id.scheduledAt, id.relayId]⟩

/-- What there is to record of it. -/
def run (o : Occurrence) (now : Nat) (status : ScheduleRunStatus) : ScheduleRun where
  finishedAt := now
  id := runId o.id
  revision := o.id.schedule.revision
  scheduleId := o.id.schedule.id
  scheduledAt := o.id.scheduledAt
  sequenceAttempts := o.sequenceAttempts
  startedAt := o.startedAt
  status := status
  targetRuns := o.fibers.map fun fiber => targetRun o.id now fiber.state

/-- How it went (`schedules.ts:520-540`). -/
def status (o : Occurrence) (now : Nat) : ScheduleRunStatus :=
  let sequenceFailed := o.sequenceAttempts.any fun entry =>
    entry.status = .failed || entry.status = .interrupted
  let targetStatus := aggregateRunStatus (o.fibers.map fun fiber => (targetRun o.id now fiber.state).status)
  if sequenceFailed then
    if targetStatus = .succeeded || targetStatus = .partial' then .partial' else .failed
  else targetStatus

/-- A wait has a target that goes on after it (`schedules.ts:424-429`). -/
def canContinue (o : Occurrence) : Bool :=
  o.fibers.any fun fiber =>
    fiber.state.activeKey.isSome &&
      (o.id.schedule.continueOnFailure || !isSet fiber.state.failure) && !fiber.state.missing

def setFiber (o : Occurrence) (i : Nat) (fiber : TargetFiber) : Occurrence :=
  { o with fibers := o.fibers.set i fiber }

theorem get_setFiber {o : Occurrence} {i k : Nat} {fiber' other : TargetFiber}
    (found : (o.setFiber i fiber').fibers[k]? = some other) :
    k = i ∧ other = fiber' ∨ k ≠ i ∧ o.fibers[k]? = some other := by
  simp only [setFiber, List.getElem?_set] at found
  split at found
  · split at found
    · exact .inl ⟨by omega, (Option.some.inj found).symm⟩
    · cases found
  · exact .inr ⟨by omega, found⟩

/-- The next action, or the occurrence's result (`schedules.ts:500-541`). -/
def proceed (o : Occurrence) (now : Nat) : List RelayScheduleAction → Occurrence
  | action :: rest =>
      { o with stage := .acting action rest, fibers := o.fibers.map .toAct }
  | [] =>
      match scheduleRunSchema.parse (o.run now (o.status now)) with
      | some run => { o with stage := .completing run }
      | none => { o with stage := .rejected }

/-- How a wait ends, or that it isn't made (`schedules.ts:430-497`). -/
def waitOutcome (o : Occurrence) (failure : Option (Option String)) : ScheduleAttemptStatus × Option String :=
  if isSet o.sequenceFailure then (.notRun, some "A previous sequence action failed")
  else if !o.canContinue then (.notRun, some "No targets can continue")
  else
    match failure with
    | none => (.succeeded, none)
    | some message => (.failed, some (errorMessage message))

/-- What a wait leaves: the occurrence's own attempt of it, and why it failed. -/
def endWait (o : Occurrence) (action : RelayScheduleAction) (startedAt now : Nat)
    (failure : Option (Option String)) : Occurrence :=
  let outcome := o.waitOutcome failure
  { o with
    sequenceAttempts := o.sequenceAttempts ++ [sequenceAttempt o.id action startedAt now outcome.1 outcome.2]
    sequenceFailure := if outcome.1 = .failed then outcome.2 else o.sequenceFailure }

/-- What a call of `recordProgress` that wrote, or couldn't, goes on to. -/
def written (o : Occurrence) (i now : Nat) (stored : Bool) (state : TargetExecutionState) : Turn → Option Occurrence
  | .marking action startedAt left (.writing run) =>
      if stored then
        some { o.setFiber i ⟨state, .executing action startedAt false⟩ with progress := some run }
      else if 0 < left then
        some (o.setFiber i ⟨state, .marking action startedAt (left - 1) .asking⟩)
      else some (o.setFiber i ⟨giveUpMark o.id action startedAt now state, .ended⟩)
  | .reporting (.writing run) =>
      if stored then some { o.setFiber i ⟨state, .ended⟩ with progress := some run }
      else some (o.setFiber i ⟨state, .ended⟩)
  | _ => none

/-- What a target whose turn it is to record progress goes on to. -/
def taken (o : Occurrence) (i now : Nat) (state : TargetExecutionState) : Turn → Option Occurrence
  | .marking action startedAt left .asking =>
      match scheduleRunSchema.parse (o.run now .running) with
      | some run => some (o.setFiber i ⟨state, .marking action startedAt left (.writing run)⟩)
      | none => some (o.setFiber i ⟨state, .thrown⟩)
  | .reporting .asking =>
      match scheduleRunSchema.parse (o.run now .running) with
      | some run => some (o.setFiber i ⟨state, .reporting (.writing run)⟩)
      | none => some (o.setFiber i ⟨state, .thrown⟩)
  | _ => none

/-- What a target does, which goes on even where the occurrence was cut off. -/
def nextOf (o : Occurrence) (i : Nat) (fiber : TargetFiber) : OccurrenceEvent → Option Occurrence
  | .check _ found =>
      match o.stage, fiber.turn with
      | .checking, .waiting =>
          if o.cut then none else some (o.setFiber i ⟨fiber.state.check found, .ended⟩)
      | _, _ => none
  | .begin _ now paused =>
      match o.stage, fiber.turn with
      | .acting action _, .waiting =>
          if o.cut || action.step.type = .wait ||
              targetExecutionConcurrency ≤ (o.fibers.filter (·.turn.isRunning)).length then none
          else some (o.setFiber i (beginAction o.id action o.sequenceFailure paused now fiber.state))
      | _, _ => none
  | .take _ now =>
      if o.fibers.any (·.turn.writing.isSome) then none else o.taken i now fiber.state fiber.turn
  | .write _ now stored => o.written i now stored fiber.state fiber.turn
  | .send _ =>
      match fiber.turn with
      | .executing action startedAt false =>
          if isInContainer action fiber.state.target then
            some { o.setFiber i ⟨fiber.state, .executing action startedAt true⟩ with
              sent := o.sent ++ [(i, action.id)] }
          else none
      | _ => none
  | .settle _ result =>
      match fiber.turn with
      | .executing action startedAt sent =>
          some (o.setFiber i ⟨{ fiber.state with inFlight := none }, .executed action startedAt sent result⟩)
      | _ => none
  | .append _ now =>
      match fiber.turn with
      | .executed action startedAt _ result =>
          some (o.setFiber i (endAction o.id action startedAt now result fiber.state))
      | _ => none
  | _ => none

/-- What an event leaves. -/
def next (o : Occurrence) (event : OccurrenceEvent) : Option Occurrence :=
  if o.crashed then none
  else
    match event with
    | .check i _ | .begin i _ _ | .take i _ | .write i _ _ | .send i | .settle i _ | .append i _ =>
        o.fibers[i]?.bind fun fiber => o.nextOf i fiber event
    | .wait startedAt now failure =>
        match o.stage with
        | .acting action rest =>
            if o.cut || action.step.type ≠ .wait then none
            else some ((o.endWait action startedAt now failure).proceed now rest)
        | _ => none
    | .advance now =>
        if o.cut || !o.fibers.all (·.turn.isEnded) then none
        else
          match o.stage with
          | .checking => some (o.proceed now o.id.schedule.actions)
          | .acting action rest =>
              if action.step.type = .wait then none else some (o.proceed now rest)
          | _ => none
    | .complete stored =>
        match o.stage with
        | .completing run =>
            if o.cut then none
            else if stored then some { o with stage := .completed, result := some run }
            else some o
        | _ => none
    | .reject =>
        if o.fibers.any (·.turn.isThrown) then some { o with cut := true, stage := .rejected }
        else none
    | .abort => some { o with cut := true }
    | .crash => some { o with crashed := true }

end Occurrence

/-- The occurrences of a schedule, and all that may happen of one. -/
def occurrenceSystem (id : OccurrenceId) : System Occurrence OccurrenceEvent :=
  .ofFunction (fun o => ∃ now active, o = .start id now active) Occurrence.next

end Kiln.Relay
