import Kiln.Contracts.Schedules
import Kiln.Relay.BrowserCapability

/-!
# What a schedule's run is recorded as

The runs a Relay records of its schedules, and what their schema accepts
(`packages/contracts/src/schedules.ts:373-460`). The IDs, the targets and the revision a run has of
its schedule were accepted with the schedule, and what `Date.now()` answers is a time, so neither is
checked here.
-/

namespace Kiln.Contracts
open Kiln.Relay (utf16Length)

/-- `ScheduleActionType` (`schedules.ts:15-22`). -/
inductive ScheduleActionType where
  | consoleCommand
  | backup
  | power
  | wait
  deriving DecidableEq, Repr

def ScheduleStep.type : ScheduleStep → ScheduleActionType
  | .consoleCommand .. => .consoleCommand
  | .backup .. => .backup
  | .power .. => .power
  | .wait .. => .wait

/-- `scheduleAttemptStatusSchema` (`schedules.ts:373-384`). -/
inductive ScheduleAttemptStatus where
  | succeeded
  | failed
  | skippedUnsupported
  | skippedMissing
  | skippedPolicy
  | interrupted
  | notRun
  | unknown
  deriving DecidableEq, Repr

/-- `scheduleTargetRunStatusSchema` (`schedules.ts:400-406`). -/
inductive ScheduleTargetRunStatus where
  | succeeded
  | noop
  | failed
  | interrupted
  | skippedOverlap
  deriving DecidableEq, Repr

/-- `scheduleRunStatusSchema` (`schedules.ts:408-416`). -/
inductive ScheduleRunStatus where
  | running
  | succeeded
  | partial'
  | failed
  | noop
  | interrupted
  | missed
  deriving DecidableEq, Repr

/-- What `scheduleStableId` answers (`schedules.ts:483-495`): 32 hexadecimal digits, digested from these parts. -/
structure ScheduleStableId where
  parts : List String
  deriving DecidableEq, Repr

def ScheduleStableId.length (_ : ScheduleStableId) : Nat := 32

/-- `ScheduleCommandResult` (`schedules.ts:386-398`). -/
structure ScheduleCommandResult where
  exitCode : Option Int
  output : String
  truncated : Bool
  deriving DecidableEq, Repr

/-- `ScheduleActionAttempt` (`schedules.ts:418-432`). -/
structure ScheduleActionAttempt where
  actionId : String
  actionType : ScheduleActionType
  error : Option String
  finishedAt : Nat
  id : ScheduleStableId
  result : Option ScheduleCommandResult := none
  startedAt : Nat
  status : ScheduleAttemptStatus
  deriving DecidableEq, Repr

/-- `ScheduleRun["targetRuns"][number]` (`schedules.ts:434-444`). -/
structure ScheduleTargetRun where
  attempts : List ScheduleActionAttempt
  error : Option String
  finishedAt : Nat
  id : ScheduleStableId
  startedAt : Nat
  status : ScheduleTargetRunStatus
  target : ScheduleTarget
  deriving DecidableEq, Repr

/-- `ScheduleRun` (`schedules.ts:446-460`). -/
structure ScheduleRun where
  finishedAt : Nat
  id : ScheduleStableId
  revision : Nat
  scheduleId : String
  scheduledAt : Nat
  sequenceAttempts : List ScheduleActionAttempt
  startedAt : Nat
  status : ScheduleRunStatus
  targetRuns : List ScheduleTargetRun
  deriving DecidableEq, Repr

/-! ## What the schemas accept -/

/-- The most an error's text may be long. -/
def maxErrorLength : Nat := 2000

/-- `z.string().max(2_000).nullable()`. -/
def isErrorText (error : Option String) : Bool :=
  error.all (utf16Length · ≤ maxErrorLength)

/-- An ID of at least one and at most 128 characters. -/
def ScheduleStableId.accepted (id : ScheduleStableId) : Bool :=
  1 ≤ id.length && id.length ≤ 128

/-- `scheduleCommandResultSchema`. -/
def ScheduleCommandResult.accepted (result : ScheduleCommandResult) : Bool :=
  result.exitCode.all (·.natAbs ≤ Kiln.Relay.maxSafeInteger) && utf16Length result.output ≤ 4096

/-- `scheduleActionAttemptSchema`. -/
def ScheduleActionAttempt.accepted (attempt : ScheduleActionAttempt) : Bool :=
  isErrorText attempt.error && attempt.id.accepted && attempt.result.all (·.accepted)

/-- `scheduleTargetRunSchema`. -/
def ScheduleTargetRun.accepted (run : ScheduleTargetRun) : Bool :=
  run.attempts.length ≤ 32 && run.attempts.all (·.accepted) && isErrorText run.error && run.id.accepted

/-- `scheduleRunSchema`. -/
def ScheduleRun.accepted (run : ScheduleRun) : Bool :=
  run.id.accepted && (run.sequenceAttempts.length ≤ 32 && run.sequenceAttempts.all (·.accepted)) &&
    (run.targetRuns.length ≤ 2000 && run.targetRuns.all (·.accepted))

/-- `scheduleRunSchema.parse`, which throws what it doesn't accept. -/
def scheduleRunSchema.parse (run : ScheduleRun) : Option ScheduleRun :=
  if run.accepted then some run else none

/-- What a schedule that `relayScheduleProjectionSchema` accepted has that its runs rest on (`schedules.ts:199-234`,
`:318-360`). -/
structure RelayScheduleProjection.Accepted (schedule : RelayScheduleProjection) : Prop where
  fewActions : schedule.actions.length ≤ 32
  fewTargets : schedule.targets.length ≤ 2000
  distinctActions : (schedule.actions.map (·.id)).Nodup
  shortRefusals : ∀ action ∈ schedule.actions, ∀ mode executions keys,
    action.step = .backup mode executions keys → ∀ execution ∈ executions,
      ∀ refusal ∈ execution.refusal, 1 ≤ utf16Length refusal ∧ utf16Length refusal ≤ 300

/-! ## What it takes for them to -/

@[simp] theorem ScheduleStableId.accepted_eq (id : ScheduleStableId) : id.accepted = true := rfl

@[simp] theorem isErrorText_none : isErrorText none = true := rfl

@[simp] theorem isErrorText_some (text : String) :
    isErrorText (some text) = true ↔ utf16Length text ≤ maxErrorLength := by
  simp [isErrorText]

theorem ScheduleRun.accepted_iff (run : ScheduleRun) : run.accepted = true ↔
      (run.sequenceAttempts.length ≤ 32 ∧ ∀ attempt ∈ run.sequenceAttempts, attempt.accepted = true) ∧
        run.targetRuns.length ≤ 2000 ∧ ∀ target ∈ run.targetRuns, target.accepted = true := by
  simp [ScheduleRun.accepted]

theorem scheduleRunSchema.parse_eq_some {run parsed : ScheduleRun} :
    scheduleRunSchema.parse run = some parsed ↔ run.accepted = true ∧ run = parsed := by
  unfold scheduleRunSchema.parse
  split <;> simp_all

end Kiln.Contracts
