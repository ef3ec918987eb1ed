import Mathlib

/-!
# Schedules, as Hearth sends them to a Relay

The parts of `packages/contracts/src/schedules.ts` a Relay's scheduler reads: a schedule with its
targets and actions (23-143, 199-371), and which actions reach which targets (535-604).
-/

namespace Kiln.Contracts

/-- `scheduleTargetKindSchema` (`schedules.ts:130-135`). -/
inductive ScheduleTargetKind where
  | instance'
  | database
  | app
  | relay
  deriving DecidableEq, Repr

/-- How a kind is written. -/
def ScheduleTargetKind.name : ScheduleTargetKind → String
  | .instance' => "instance"
  | .database => "database"
  | .app => "app"
  | .relay => "relay"

/-- `ScheduleTarget` (`schedules.ts:137-146`). -/
structure ScheduleTarget where
  id : String
  kind : ScheduleTargetKind
  name : String
  relayId : String
  deriving DecidableEq, Repr

/-- `backupModeSchema`. -/
inductive BackupMode where
  | full
  | incremental
  deriving DecidableEq, Repr

/-- The `action` of a power step. -/
inductive SchedulePower where
  | start
  | stop
  | restart
  | kill
  deriving DecidableEq, Repr

/-- `scheduleWaitUnitSchema` (`schedules.ts:98-104`). -/
inductive ScheduleWaitUnit where
  | milliseconds
  | seconds
  | minutes
  | hours
  | days
  deriving DecidableEq, Repr

/-- The `targetKind` of a backup that was admitted. -/
inductive BackupTargetKind where
  | target (kind : ScheduleTargetKind)
  | volume
  deriving DecidableEq, Repr

/-- `relayScheduleBackupExecutionSchema` (`schedules.ts:312-335`), as far as it says whose backup it is and why it may
not run. -/
structure BackupExecution where
  refusal : Option String := none
  appId : Option String := none
  targetId : String
  targetKind : BackupTargetKind
  deriving DecidableEq, Repr

/-- What a step does, apart from its ID. -/
inductive ScheduleStep where
  | consoleCommand (command : String) (services : List (String × String))
      (authorizedTargets : Bool) (targetKeys : Option (List String))
  | backup (mode : BackupMode) (executions : List BackupExecution) (targetKeys : Option (List String))
  | power (action : SchedulePower) (authorizedTargets : Bool) (targetKeys : Option (List String))
  | wait (duration : Nat) (unit : ScheduleWaitUnit)
  deriving DecidableEq, Repr

/-- `RelayScheduleAction` (`schedules.ts:347-354`). -/
structure RelayScheduleAction where
  id : String
  step : ScheduleStep
  deriving DecidableEq, Repr

/-- `RelayScheduleProjection` (`schedules.ts:356-371`). -/
structure RelayScheduleProjection where
  id : String
  revision : Nat
  generation : Option Nat := none
  enabled : Bool := true
  cron : String
  continueOnFailure : Bool := false
  targets : List ScheduleTarget
  actions : List RelayScheduleAction
  deriving DecidableEq, Repr

/-- `scheduleTargetKey` (`schedules.ts:553-557`). -/
def scheduleTargetKey (target : ScheduleTarget) : String :=
  target.relayId ++ ":" ++ target.kind.name ++ ":" ++ target.id

/-- `scheduleActionSupportsTarget` (`schedules.ts:535-551`). -/
def scheduleActionSupportsTarget (action : RelayScheduleAction) (target : ScheduleTarget) : Bool :=
  match action.step with
  | .wait .. => true
  | .consoleCommand .. => target.kind ≠ .relay
  | .power .. => target.kind ≠ .relay
  | .backup .incremental .. => target.kind = .instance'
  | .backup .full .. => true

/-- `scheduleActionNeedsNamedTarget` (`schedules.ts:568-580`). -/
def scheduleActionNeedsNamedTarget (action : RelayScheduleAction) (target : ScheduleTarget) :
    Bool :=
  (target.kind = .database || target.kind = .app) &&
    match action.step with
    | .consoleCommand .. => true
    | .power .kill .. => true
    | _ => false

/-- The `targetKeys` of a step. -/
def ScheduleStep.targetKeys : ScheduleStep → Option (List String)
  | .consoleCommand _ _ _ keys | .backup _ _ keys | .power _ _ keys => keys
  | .wait .. => none

/-- A step carries `authorizedTargets`. -/
def ScheduleStep.authorizedTargets : ScheduleStep → Bool
  | .consoleCommand _ _ authorized _ | .power _ authorized _ => authorized
  | .backup .. | .wait .. => false

/-- `scheduleActionAppliesToTarget` (`schedules.ts:582-604`). -/
def scheduleActionAppliesToTarget (action : RelayScheduleAction) (target : ScheduleTarget) :
    Bool :=
  match action.step with
  | .wait .. => true
  | step =>
      if !scheduleActionSupportsTarget action target then false
      else
        let named := step.targetKeys.any (·.contains (scheduleTargetKey target))
        if scheduleActionNeedsNamedTarget action target then step.authorizedTargets && named
        else step.targetKeys.isNone || named

end Kiln.Contracts
