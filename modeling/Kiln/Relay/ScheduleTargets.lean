import Kiln.Contracts.ScheduleRuns
import Kiln.Operations.Lanes

/-!
# One target of a schedule's occurrence

What an occurrence keeps of each of its targets, and what an action does to one
(`apps/relay/src/schedules.ts:47-62`, `:568-804`, `:1140-1240`). An action on a target goes from one
`await` to the next, and these are its steps. What the action itself does to the target is outside;
how it ends is given.

`Date.now()` is asked once in a step. A text that may be unset is set, where the code asks, if it
isn't empty.
-/

namespace Kiln.Relay
open Kiln.Contracts Kiln.Operations

/-- A text is set and not empty, as a condition on it asks. -/
def isSet (text : Option String) : Bool :=
  text.any (· ≠ "")

/-- `ContainerCommandResult` (`container-commands.ts:51-59`). What it kept of the output was at most 4096 bytes, of
which each makes at most one character (`:261-300`); an exit code is missing where Kiln lost track of the command, and
says why. -/
structure ContainerCommandResult where
  exitCode : Option Int
  output : String
  truncated : Bool
  unknown : Option String
  short : utf16Length output ≤ 4096
  plain : ∀ code ∈ exitCode, code.natAbs ≤ maxSafeInteger
  known : unknown = none ↔ exitCode ≠ none
  reasoned : ∀ reason ∈ unknown, reason ≠ ""

/-- How `#executeAction` ends (`schedules.ts:816-940`). A cause that isn't an `Error` has no message. -/
inductive ExecutionResult where
  | done (result : Option ContainerCommandResult)
  | laneRejected (error : LaneRejectedError)
  | failed (message : Option String)

/-- `errorMessage` (`schedules.ts:1281-1283`). -/
def errorMessage (message : Option String) : String :=
  message.getD "Unknown schedule error"

/-- `TargetExecutionState` (`schedules.ts:47-62`), but for the power intent, which only goes on to
    what an action does. -/
structure TargetExecutionState where
  activeKey : Option String
  attempts : List ScheduleActionAttempt := []
  error : Option String := none
  failure : Option String := none
  inFlight : Option ScheduleActionAttempt := none
  missing : Bool := false
  startedAt : Nat
  target : ScheduleTarget
  deriving DecidableEq, Repr

/-- The occurrence an action is part of. -/
structure OccurrenceId where
  schedule : RelayScheduleProjection
  scheduledAt : Nat
  relayId : String
  deriving DecidableEq, Repr

variable (occurrence : OccurrenceId)

/-- `attempt` (`schedules.ts:1140-1172`). -/
def attempt (action : RelayScheduleAction) (target : ScheduleTarget) (startedAt now : Nat)
    (status : ScheduleAttemptStatus) (error : Option String) : ScheduleActionAttempt where
  actionId := action.id
  actionType := action.step.type
  error := error
  finishedAt := now
  id := ⟨[occurrence.schedule.id, toString occurrence.scheduledAt, target.kind.name, target.id, action.id]⟩
  startedAt := startedAt
  status := status

/-- `sequenceAttempt` (`schedules.ts:1174-1199`). -/
def sequenceAttempt (action : RelayScheduleAction) (startedAt now : Nat)
    (status : ScheduleAttemptStatus) (error : Option String) : ScheduleActionAttempt where
  actionId := action.id
  actionType := action.step.type
  error := error
  finishedAt := now
  id := ⟨[occurrence.schedule.id, toString occurrence.scheduledAt, "sequence", action.id]⟩
  startedAt := startedAt
  status := status

/-- `targetRun` (`schedules.ts:1201-1232`). -/
def targetRun (now : Nat) (state : TargetExecutionState) : ScheduleTargetRun where
  attempts := state.attempts ++ state.inFlight.toList
  error := state.error
  finishedAt := now
  id := ⟨[occurrence.schedule.id, toString occurrence.scheduledAt, state.target.kind.name, state.target.id]⟩
  startedAt := state.startedAt
  status :=
    if state.activeKey.isNone then .skippedOverlap
    else if state.inFlight.isSome then .interrupted
    else if isSet state.failure || state.missing then .failed
    else if state.attempts.any (·.status = .succeeded) then .succeeded
    else .noop
  target := state.target

/-- `aggregateRunStatus` (`schedules.ts:1234-1250`). -/
def aggregateRunStatus (statuses : List ScheduleTargetRunStatus) : ScheduleRunStatus :=
  let failed := (statuses.filter fun status => status = .failed || status = .interrupted).length
  if failed = statuses.length && 0 < statuses.length then .failed
  else if 0 < failed then .partial'
  else if statuses.any (· = .succeeded) then .succeeded
  else .noop

/-- `backupRefusal` of a backup's `executions` (`schedules.ts:1286-1320`). -/
def backupRefusal (executions : List BackupExecution) (target : ScheduleTarget) : Option String :=
  let own : List BackupExecution := match target.kind with
    | .app => executions.filter fun candidate =>
        (candidate.targetKind = .target .app && candidate.targetId = target.id) ||
          (candidate.targetKind = .volume && candidate.appId = some target.id)
    | kind => (executions.find? fun candidate =>
        candidate.targetId = target.id && candidate.targetKind = .target kind).toList
  (own.find? fun execution => isSet execution.refusal).bind (·.refusal)

/-- Why Hearth refused a step on a target, which only a backup's says (`schedules.ts:664-667`). -/
def stepRefusal (action : RelayScheduleAction) (target : ScheduleTarget) : Option String :=
  match action.step with
  | .backup _ executions _ => backupRefusal executions target
  | _ => none

/-- A command that runs in a container (`schedules.ts:685-686`). -/
def isInContainer (action : RelayScheduleAction) (target : ScheduleTarget) : Bool :=
  match action.step with
  | .consoleCommand .. => target.kind ≠ .instance'
  | _ => false

/-- `powerOwner` (`schedules.ts:1273-1279`). -/
def powerOwner (target : ScheduleTarget) : String :=
  match target.kind with
  | .database => "the database's"
  | .app => "the App's"
  | _ => "the server's"

/-! ## The steps of an action on a target -/

/-- Where a call of `recordProgress` is: it asks for the permit, or writes what it took. -/
inductive Recording where
  | asking
  | writing (run : ScheduleRun)
  deriving DecidableEq, Repr

/-- Where an action on a target is. -/
inductive Turn where
  | waiting
  /-- Its command is recorded before it's sent, which is tried so many more times. -/
  | marking (action : RelayScheduleAction) (startedAt left : Nat) (recording : Recording)
  | executing (action : RelayScheduleAction) (startedAt : Nat) (sent : Bool)
  /-- What it did has ended, and its mark is cleared. -/
  | executed (action : RelayScheduleAction) (startedAt : Nat) (sent : Bool) (result : ExecutionResult)
  | reporting (recording : Recording)
  | ended
  | thrown

/-- A target with the action on it. -/
structure TargetFiber where
  state : TargetExecutionState
  turn : Turn

namespace TargetExecutionState

/-- `state.attempts.push`. -/
def push (state : TargetExecutionState) (entry : ScheduleActionAttempt) : TargetExecutionState :=
  { state with attempts := state.attempts ++ [entry] }

/-- The first failure stays the target's error (`schedules.ts:701-704`, `:776-779`). -/
def noteFailure (state : TargetExecutionState) (failure : Option String) : TargetExecutionState :=
  if isSet failure && !isSet state.failure then { state with failure := failure, error := failure }
  else state

/-- What its check leaves (`schedules.ts:409-416`): whether it exists, or why that isn't known. -/
def check (state : TargetExecutionState) (found : Except (Option String) Bool) :
    TargetExecutionState :=
  match found with
  | .error message =>
      { state with failure := some (errorMessage message), error := some (errorMessage message) }
  | .ok false => { state with missing := true, error := some "Target no longer exists" }
  | .ok true => state

end TargetExecutionState

/-- Why an action isn't executed on a target, if it isn't (`schedules.ts:579-681`). -/
def withheld (occurrence : OccurrenceId) (action : RelayScheduleAction)
    (sequenceFailure : Option String) (paused : Bool) (state : TargetExecutionState) :
    Option (ScheduleAttemptStatus × Option String) :=
  if isSet sequenceFailure then some (.notRun, some "A previous sequence action failed")
  else if isSet state.failure && !occurrence.schedule.continueOnFailure then
    some (.notRun, some "A previous action failed")
  else if state.missing then some (.skippedMissing, some "Target no longer exists")
  else if paused then some (.notRun, some "Not run: the Relay is paused")
  else if !scheduleActionSupportsTarget action state.target then some (.skippedUnsupported, none)
  else if !scheduleActionAppliesToTarget action state.target then some (.skippedPolicy, none)
  else if isSet (stepRefusal action state.target) then
    some (.notRun, some ("Not run: " ++ (stepRefusal action state.target).getD ""))
  else none

/-- What a command is recorded as until it ends. -/
def inFlightText : String :=
  "The Relay stopped before this command finished, so it may have run"

/-- `#executeTargetAction` up to its first `await` (`schedules.ts:577-697`). -/
def beginAction (action : RelayScheduleAction) (sequenceFailure : Option String) (paused : Bool)
    (now : Nat) (state : TargetExecutionState) : TargetFiber :=
  if state.activeKey.isNone then ⟨state, .ended⟩
  else
    match withheld occurrence action sequenceFailure paused state with
    | some (status, error) =>
        ⟨state.push (attempt occurrence action state.target now now status error), .ended⟩
    | none =>
        if isInContainer action state.target then
          ⟨{ state with
              inFlight :=
                some (attempt occurrence action state.target now now .unknown (some inFlightText)) },
            .marking action now 3 .asking⟩
        else ⟨state, .executing action now false⟩

/-- What is said of a command that couldn't be recorded before it was sent. -/
def unrecordedText : String :=
  "Not run: the Relay couldn't record the command before sending it"

/-- What `recordProgress(true)` answering `false` leaves (`schedules.ts:699-718`). -/
def giveUpMark (action : RelayScheduleAction) (startedAt now : Nat)
    (state : TargetExecutionState) : TargetExecutionState :=
  ({ state with inFlight := none }.noteFailure (some unrecordedText)).push
    (attempt occurrence action state.target startedAt now .failed (some unrecordedText))

/-- The text of a step its lanes withdrew (`schedules.ts:752-758`), if that gives way. -/
def givesWay (target : ScheduleTarget) (error : LaneRejectedError) : Option String :=
  match error.reason with
  | .paused => some "Not run: the Relay is paused"
  | .refused => some ("Not run: " ++ error.message)
  | .superseded => some ("Not run: " ++ powerOwner target ++ " power was changed during the schedule")
  | .busy | .cancelled => none

/-- The command's result, if it has one. -/
def ExecutionResult.result : ExecutionResult → Option ContainerCommandResult
  | .done result => result
  | _ => none

/-- What failed, as `#executeTargetAction` finds it (`schedules.ts:768-775`). -/
def ExecutionResult.failure : ExecutionResult → Option String
  | .failed message => some (errorMessage message)
  | .laneRejected error => some error.message
  | .done none => none
  | .done (some result) =>
      if isSet result.unknown then result.unknown
      else if result.exitCode ≠ some 0 then
        some ("The command exited with code " ++ (result.exitCode.map toString).getD "null")
      else none

/-- What is kept of a command's result. -/
def ContainerCommandResult.kept (result : ContainerCommandResult) : ScheduleCommandResult :=
  ⟨result.exitCode, result.output, result.truncated⟩

/-- The attempt of what ended (`schedules.ts:743-801`). -/
def endedAttempt (action : RelayScheduleAction) (target : ScheduleTarget) (startedAt now : Nat)
    (executed : ExecutionResult) : ScheduleActionAttempt :=
  { attempt occurrence action target startedAt now (if isSet (executed.result.bind (·.unknown)) then .unknown
        else if isSet executed.failure then .failed
        else .succeeded)
      executed.failure with
    result := executed.result.map (·.kept) }

/-- Where an action is once its attempt is there (`schedules.ts:764-765`, `:802-803`). -/
def reportTurn (action : RelayScheduleAction) (target : ScheduleTarget) : Turn :=
  if isInContainer action target then .reporting .asking else .ended

/-- What the end of what an action did leaves (`schedules.ts:735-803`). -/
def endAction (action : RelayScheduleAction) (startedAt now : Nat) (executed : ExecutionResult)
    (state : TargetExecutionState) : TargetFiber :=
  let withdrawn := match executed with
    | .laneRejected error => givesWay state.target error
    | _ => none
  match withdrawn with
  | some text =>
      ⟨state.push (attempt occurrence action state.target startedAt now .notRun (some text)),
        reportTurn action state.target⟩
  | none =>
      ⟨(state.noteFailure executed.failure).push (endedAttempt occurrence action state.target startedAt now executed),
        reportTurn action state.target⟩

end Kiln.Relay
