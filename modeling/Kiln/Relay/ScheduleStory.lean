import Kiln.Relay.ScheduleOccurrence

/-!
# What happens in an occurrence

What came of each check, wait and action of an occurrence, in the order in which it came, and what
its record is to say of it: what each action's attempt is, how each target went, and how it all went.
-/

namespace Kiln.Relay
open Kiln.Lib Kiln.Contracts Kiln.Operations

/-- What an attempt says. -/
structure Outcome where
  status : ScheduleAttemptStatus
  error : Option String
  result : Option ScheduleCommandResult := none
  deriving DecidableEq, Repr

/-- What came of an action on a target. -/
inductive Deed where
  /-- It wasn't executed. -/
  | withheld (status : ScheduleAttemptStatus) (reason : Option String)
  /-- Its command couldn't be recorded, and wasn't sent. -/
  | unrecorded
  | executed (result : ExecutionResult)

/-- What happens in an occurrence. -/
inductive Happening where
  | checked (i : Nat) (found : Except (Option String) Bool)
  | acted (i : Nat) (action : RelayScheduleAction) (deed : Deed)
  | waited (action : RelayScheduleAction) (outcome : Outcome)

/-- What is to be said of an action that was executed. -/
def ExecutionResult.outcome (target : ScheduleTarget) : ExecutionResult → Outcome
  | .failed message => ⟨.failed, some (errorMessage message), none⟩
  | .laneRejected error =>
      match givesWay target error with
      | some text => ⟨.notRun, some text, none⟩
      | none => ⟨.failed, some error.message, none⟩
  | .done none => ⟨.succeeded, none, none⟩
  | .done (some result) =>
      match result.unknown, result.exitCode with
      | some reason, _ => ⟨.unknown, some reason, some result.kept⟩
      | none, some 0 => ⟨.succeeded, none, some result.kept⟩
      | none, code =>
          ⟨.failed, some ("The command exited with code " ++ (code.map toString).getD "null"), some result.kept⟩

/-- What is to be said of what came of an action. -/
def Deed.outcome (target : ScheduleTarget) : Deed → Outcome
  | .withheld status reason => ⟨status, reason, none⟩
  | .unrecorded => ⟨.failed, some unrecordedText, none⟩
  | .executed result => result.outcome target

/-- An attempt that went wrong. -/
def Outcome.isFailure (outcome : Outcome) : Bool :=
  outcome.status = .failed || outcome.status = .unknown

/-- What an attempt says. -/
def attemptOutcome (entry : ScheduleActionAttempt) : Outcome :=
  ⟨entry.status, entry.error, entry.result⟩

/-! ## What a step makes happen -/

namespace Occurrence

/-- What happens in a step. -/
def happening (o : Occurrence) : OccurrenceEvent → Option Happening
  | .check i found => some (.checked i found)
  | .begin i _ paused =>
      match o.stage, o.fibers[i]? with
      | .acting action _, some fiber =>
          if fiber.state.activeKey.isNone then none
          else (withheld o.id action o.sequenceFailure paused fiber.state).map fun reason =>
            .acted i action (.withheld reason.1 reason.2)
      | _, _ => none
  | .write i _ false =>
      match o.fibers[i]?.map TargetFiber.turn with
      | some (.marking action _ 0 (.writing _)) => some (.acted i action .unrecorded)
      | _ => none
  | .append i _ =>
      match o.fibers[i]?.map TargetFiber.turn with
      | some (.executed action _ _ result) => some (.acted i action (.executed result))
      | _ => none
  | .wait _ _ failure =>
      match o.stage with
      | .acting action _ =>
          let outcome := o.waitOutcome failure
          some (.waited action ⟨outcome.1, outcome.2, none⟩)
      | _ => none
  | _ => none

/-- What an event leaves, with all that happened. -/
def nextTold (told : Occurrence × List Happening) (event : OccurrenceEvent) : Option (Occurrence × List Happening) :=
  (told.1.next event).map (·, told.2 ++ (told.1.happening event).toList)

end Occurrence

/-- The occurrences of a schedule, with all that happens in them. -/
def toldSystem (id : OccurrenceId) (startedAt : Nat) (active : List String) :
    System (Occurrence × List Happening) OccurrenceEvent :=
  .ofFunction (· = (.start id startedAt active, [])) Occurrence.nextTold

/-! ## What there is to tell -/

/-- What came of the actions on a target, in order. -/
def deedsOf (i : Nat) (story : List Happening) : List (RelayScheduleAction × Deed) :=
  story.filterMap fun
    | .acted j action deed => if j = i then some (action, deed) else none
    | _ => none

/-- What came of the waits, in order. -/
def waitsOf (story : List Happening) : List (RelayScheduleAction × Outcome) :=
  story.filterMap fun
    | .waited action outcome => some (action, outcome)
    | _ => none

/-- What a target's check found. -/
def checksOf (i : Nat) (story : List Happening) : List (Except (Option String) Bool) :=
  story.filterMap fun
    | .checked j found => if j = i then some found else none
    | _ => none

/-- A check that found its target. -/
def isFound : Except (Option String) Bool → Bool
  | .ok true => true
  | _ => false

/-- How a target that was free went, by what happened to it. -/
def toldStatus (i : Nat) (target : ScheduleTarget) (story : List Happening) :
    ScheduleTargetRunStatus :=
  let outcomes := (deedsOf i story).map fun deed => deed.2.outcome target
  if !(checksOf i story).all isFound || outcomes.any (·.isFailure) then .failed
  else if outcomes.any (·.status = .succeeded) then .succeeded
  else .noop

/-- A step on a target rather than a wait. -/
def isTargetAction (action : RelayScheduleAction) : Bool :=
  action.step.type ≠ .wait

/-- A run tells what happened: each target is there, with one attempt for each action in its order unless another
occurrence held it, and each attempt, target and the run itself say how it went. -/
structure Tells (id : OccurrenceId) (initial : List TargetExecutionState)
    (story : List Happening) (run : ScheduleRun) : Prop where
  targets : run.targetRuns.map (·.target) = id.schedule.targets
  held : ∀ (i : Nat) target state, run.targetRuns[i]? = some target → initial[i]? = some state →
    state.activeKey = none → target.status = .skippedOverlap ∧ target.attempts = []
  each : ∀ (i : Nat) target state, run.targetRuns[i]? = some target → initial[i]? = some state →
    state.activeKey ≠ none → (deedsOf i story).map (·.1) = id.schedule.actions.filter isTargetAction
  attempts : ∀ (i : Nat) target, run.targetRuns[i]? = some target →
    target.attempts.map (fun entry => (entry.actionId, attemptOutcome entry)) =
      (deedsOf i story).map fun deed => (deed.1.id, deed.2.outcome target.target)
  statuses : ∀ (i : Nat) target state, run.targetRuns[i]? = some target → initial[i]? = some state →
    state.activeKey ≠ none → target.status = toldStatus i target.target story
  waits : (waitsOf story).map (·.1) = id.schedule.actions.filter (!isTargetAction ·) ∧
    run.sequenceAttempts.map (fun entry => (entry.actionId, attemptOutcome entry)) =
      (waitsOf story).map fun wait => (wait.1.id, wait.2)
  status : run.status =
    if (waitsOf story).any (·.2.status = .failed) then
      if aggregateRunStatus (run.targetRuns.map (·.status)) = .succeeded ∨
          aggregateRunStatus (run.targetRuns.map (·.status)) = .partial' then .partial'
      else .failed
    else aggregateRunStatus (run.targetRuns.map (·.status))

/-! ## Reading a story -/

section

variable {i j : Nat} {story more : List Happening} {action : RelayScheduleAction} {deed : Deed}
  {found : Except (Option String) Bool} {outcome : Outcome}

@[simp] theorem deedsOf_append : deedsOf i (story ++ more) = deedsOf i story ++ deedsOf i more :=
  List.filterMap_append ..

@[simp] theorem waitsOf_append : waitsOf (story ++ more) = waitsOf story ++ waitsOf more :=
  List.filterMap_append ..

@[simp] theorem checksOf_append : checksOf i (story ++ more) = checksOf i story ++ checksOf i more :=
  List.filterMap_append ..

@[simp] theorem deedsOf_nil : deedsOf i [] = [] := rfl

@[simp] theorem waitsOf_nil : waitsOf [] = [] := rfl

@[simp] theorem checksOf_nil : checksOf i [] = [] := rfl

@[simp] theorem deedsOf_acted : deedsOf i [.acted j action deed] = if j = i then [(action, deed)] else [] := by
  simp only [deedsOf, List.filterMap_cons, List.filterMap_nil]
  split <;> simp_all

@[simp] theorem deedsOf_checked : deedsOf i [.checked j found] = [] := rfl

@[simp] theorem deedsOf_waited : deedsOf i [.waited action outcome] = [] := rfl

@[simp] theorem checksOf_acted : checksOf i [.acted j action deed] = [] := rfl

@[simp] theorem checksOf_checked : checksOf i [.checked j found] = if j = i then [found] else [] := by
  simp only [checksOf, List.filterMap_cons, List.filterMap_nil]
  split <;> simp_all

@[simp] theorem checksOf_waited : checksOf i [.waited action outcome] = [] := rfl

@[simp] theorem waitsOf_acted : waitsOf [.acted j action deed] = [] := rfl

@[simp] theorem waitsOf_checked : waitsOf [.checked j found] = [] := rfl

@[simp] theorem waitsOf_waited : waitsOf [.waited action outcome] = [(action, outcome)] := rfl

end

end Kiln.Relay
