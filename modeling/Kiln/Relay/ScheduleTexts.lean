import Mathlib
import Kiln.Relay.ScheduleStory

/-!
# The texts of an occurrence

What a run says of an action is put together from what failed, wherever that was, and then checked
to be short enough. It is where what failed says something, and no more than fits.
-/

namespace Kiln.Relay
open Kiln.Lib Kiln.Contracts Kiln.Operations TargetExecutionState

/-! ## Lengths -/

theorem utf16Length_append (a b : String) : utf16Length (a ++ b) = utf16Length a + utf16Length b := by
  simp [utf16Length]

theorem utf16Length_le (text : String) : utf16Length text ≤ 2 * text.length := by
  have each : ∀ chars : List Char, (chars.map fun c => if c.toNat < 65536 then 1 else 2).sum ≤ 2 * chars.length := by
    intro chars
    induction chars with
    | nil => simp
    | cons c chars ih =>
      simp only [List.map_cons, List.sum_cons, List.length_cons]
      split <;> omega
  rw [← String.length_toList]
  exact each text.toList

/-- A number that a JSON text may hold exactly is short. -/
theorem utf16Length_exitCode {code : Int} (plain : code.natAbs ≤ maxSafeInteger) :
    utf16Length (toString code) ≤ 40 := by
  have digits : utf16Length (Nat.repr code.natAbs) ≤ 32 := by
    have short : (Nat.repr code.natAbs).length ≤ 16 :=
      Nat.repr_length _ _ (by omega) (lt_of_le_of_lt plain (by decide))
    exact (utf16Length_le _).trans (by omega)
  have sign : utf16Length "-" = 1 := by decide
  cases code with
  | ofNat n =>
    have same : toString (Int.ofNat n) = Nat.repr n := rfl
    rw [same]
    exact digits.trans (by omega)
  | negSucc n =>
    have same : toString (Int.negSucc n) = "-" ++ Nat.repr (n + 1) := rfl
    rw [same, utf16Length_append]
    have digits : utf16Length (Nat.repr (n + 1)) ≤ 32 := digits
    omega

/-! ## What fits -/

/-- What failed says something, and no more than fits. -/
def FitsText (text : String) : Prop :=
  text ≠ "" ∧ utf16Length text ≤ maxErrorLength

/-- What an action ended with fits. A step that gives way to what its target is at says why. -/
def ExecutionResult.Fits : ExecutionResult → Prop
  | .failed message => FitsText (errorMessage message)
  | .laneRejected error =>
      match error.reason with
      | .refused => utf16Length ("Not run: " ++ error.message) ≤ maxErrorLength
      | .busy | .cancelled => FitsText error.message
      | .paused | .superseded => True
  | .done none => True
  | .done (some result) => ∀ reason ∈ result.unknown, utf16Length reason ≤ maxErrorLength

/-- The texts of an event fit. -/
def TextsFit : OccurrenceEvent → Prop
  | .check _ (.error message) => FitsText (errorMessage message)
  | .wait _ _ (some message) => utf16Length (errorMessage message) ≤ maxErrorLength
  | .settle _ result => result.Fits
  | _ => True

theorem FitsText.isSet {text : String} (fits : FitsText text) : isSet (some text) = true := by
  simp [Kiln.Relay.isSet, fits.1]

theorem FitsText.isErrorText {text : String} (fits : FitsText text) : isErrorText (some text) = true := by
  simp [fits.2]

theorem attempt_accepted (id : OccurrenceId) (action : RelayScheduleAction) (target : ScheduleTarget)
    (startedAt now : Nat) (status : ScheduleAttemptStatus) {error : Option String}
    (fits : isErrorText error = true) :
    (attempt id action target startedAt now status error).accepted = true := by
  simp [ScheduleActionAttempt.accepted, attempt, fits]

theorem sequenceAttempt_accepted (id : OccurrenceId) (action : RelayScheduleAction)
    (startedAt now : Nat) (status : ScheduleAttemptStatus) {error : Option String}
    (fits : isErrorText error = true) :
    (sequenceAttempt id action startedAt now status error).accepted = true := by
  simp [ScheduleActionAttempt.accepted, sequenceAttempt, fits]

/-! ## An action that ended -/

theorem failure_of_fits {result : ExecutionResult} {target : ScheduleTarget} (fits : result.Fits)
    (stays : ∀ error, result = .laneRejected error → givesWay target error = none) :
    result.failure = (result.outcome target).error ∧ isSet result.failure = (result.outcome target).isFailure ∧
      isErrorText result.failure = true := by
  cases result with
  | failed message =>
    have said : FitsText (errorMessage message) := fits
    simp [ExecutionResult.failure, ExecutionResult.outcome, Outcome.isFailure, said.isSet, said.isErrorText]
  | laneRejected error =>
    have stays := stays error rfl
    have said : FitsText error.message := by
      unfold givesWay at stays
      unfold ExecutionResult.Fits at fits
      cases reason : error.reason <;> simp_all
    simp [ExecutionResult.failure, ExecutionResult.outcome, Outcome.isFailure, stays, said.isSet, said.isErrorText]
  | done result =>
    cases result with
    | none => simp [ExecutionResult.failure, ExecutionResult.outcome, Outcome.isFailure, isSet]
    | some result =>
      obtain ⟨exitCode, output, truncated, unknown, short, plain, known, reasoned⟩ := result
      cases unknown with
      | some reason =>
        have set : isSet (some reason) = true := by simp [isSet, reasoned reason rfl]
        have fits : utf16Length reason ≤ maxErrorLength := fits reason rfl
        simp [ExecutionResult.failure, ExecutionResult.outcome, Outcome.isFailure, set, fits]
      | none =>
        obtain ⟨code, rfl⟩ := Option.ne_none_iff_exists'.mp (known.mp rfl)
        have exited := utf16Length_exitCode (plain code rfl)
        have text : utf16Length "The command exited with code " = 29 := by decide
        have fits : utf16Length ("The command exited with code " ++ toString code) ≤ maxErrorLength := by
          rw [utf16Length_append, text, maxErrorLength]
          omega
        by_cases zero : code = 0
        · subst zero
          simp [ExecutionResult.failure, ExecutionResult.outcome, Outcome.isFailure, isSet]
        · simp [ExecutionResult.failure, ExecutionResult.outcome, Outcome.isFailure, isSet, zero]
          exact fits

/-- What a target's attempt of an action leaves of it. -/
structure Attempted (action : RelayScheduleAction) (outcome : Outcome)
    (state state' : TargetExecutionState) : Prop where
  attempts : ∃ entry, state'.attempts = state.attempts ++ [entry] ∧ entry.actionId = action.id ∧
    attemptOutcome entry = outcome ∧ entry.accepted = true
  failure : isSet state'.failure = (isSet state.failure || outcome.isFailure)
  error : isErrorText state.error = true → isErrorText state'.error = true
  missing : state'.missing = state.missing
  target : state'.target = state.target
  activeKey : state'.activeKey = state.activeKey
  inFlight : state.inFlight = none → state'.inFlight = none

section

variable {id : OccurrenceId} {action : RelayScheduleAction} {state : TargetExecutionState} {startedAt now : Nat}

theorem isSet_noteFailure (state : TargetExecutionState) (failure : Option String) :
    isSet (state.noteFailure failure).failure = (isSet state.failure || isSet failure) := by
  unfold noteFailure
  cases first : isSet state.failure <;> cases later : isSet failure <;> simp [first, later]

theorem noteFailure_error {failure : Option String} (fits : isErrorText failure = true)
    (before : isErrorText state.error = true) :
    isErrorText (state.noteFailure failure).error = true := by
  unfold noteFailure
  split
  · exact fits
  · exact before

theorem noteFailure_rest (state : TargetExecutionState) (failure : Option String) :
    (state.noteFailure failure).attempts = state.attempts ∧ (state.noteFailure failure).missing = state.missing ∧
      (state.noteFailure failure).target = state.target ∧
      (state.noteFailure failure).activeKey = state.activeKey ∧
      (state.noteFailure failure).inFlight = state.inFlight := by
  unfold noteFailure
  split <;> simp

theorem attempted_noteFailure {failure : Option String} {entry : ScheduleActionAttempt}
    {outcome : Outcome} (fits : isErrorText failure = true)
    (fails : isSet failure = outcome.isFailure) (same : entry.actionId = action.id)
    (told : attemptOutcome entry = outcome) (accepted : entry.accepted = true) :
    Attempted action outcome state ((state.noteFailure failure).push entry) := by
  obtain ⟨attempts, missing, target, activeKey, inFlight⟩ := noteFailure_rest state failure
  refine ⟨⟨entry, ?_, same, told, accepted⟩, ?_, noteFailure_error fits, missing, target, activeKey,
    fun none => inFlight.trans none⟩
  · simp [push, attempts]
  · simp [push, isSet_noteFailure, fails]

theorem kept_accepted (result : ContainerCommandResult) : result.kept.accepted = true := by
  have plain : result.exitCode.all (·.natAbs ≤ maxSafeInteger) = true := by
    cases code : result.exitCode with
    | none => rfl
    | some value => simp [result.plain value code]
  simp [ScheduleCommandResult.accepted, ContainerCommandResult.kept, plain, result.short]

theorem endedAttempt_outcome {result : ExecutionResult} (fits : result.Fits)
    (stays : ∀ error, result = .laneRejected error → givesWay state.target error = none) :
    attemptOutcome (endedAttempt id action state.target startedAt now result) = result.outcome state.target := by
  obtain ⟨error, fails, -⟩ := failure_of_fits fits stays
  have status : (if isSet (result.result.bind (·.unknown)) then ScheduleAttemptStatus.unknown
      else if isSet result.failure then .failed else .succeeded) =
      (result.outcome state.target).status := by
    rw [fails]
    cases result with
    | failed message =>
      simp [ExecutionResult.result, ExecutionResult.outcome, Outcome.isFailure, isSet]
    | laneRejected rejection =>
      simp [ExecutionResult.result, ExecutionResult.outcome, Outcome.isFailure, isSet, stays rejection rfl]
    | done result =>
      cases result with
      | none => simp [ExecutionResult.result, ExecutionResult.outcome, Outcome.isFailure, isSet]
      | some result =>
        cases lost : result.unknown with
        | some reason =>
          simp [ExecutionResult.result, ExecutionResult.outcome, isSet, lost, result.reasoned reason lost]
        | none =>
          obtain ⟨code, exited⟩ := Option.ne_none_iff_exists'.mp (result.known.mp lost)
          by_cases zero : code = 0 <;>
            simp [ExecutionResult.result, ExecutionResult.outcome, Outcome.isFailure, isSet, lost, exited, zero]
  have kept : result.result.map (·.kept) = (result.outcome state.target).result := by
    cases result with
    | failed message => rfl
    | laneRejected rejection =>
      simp [ExecutionResult.result, ExecutionResult.outcome, stays rejection rfl]
    | done result =>
      cases result with
      | none => rfl
      | some result =>
        simp only [ExecutionResult.result, ExecutionResult.outcome]
        split <;> rfl
  simp only [attemptOutcome, endedAttempt, attempt]
  rw [status, kept, error]

variable {target : ScheduleTarget}

theorem endedAttempt_accepted {result : ExecutionResult} (fits : isErrorText result.failure = true) :
    (endedAttempt id action target startedAt now result).accepted = true := by
  have kept : (result.result.map (·.kept)).all (·.accepted) = true := by
    cases result.result with
    | none => rfl
    | some result => simp [kept_accepted]
  simp [ScheduleActionAttempt.accepted, endedAttempt, attempt, fits, kept]

theorem attempted_push {entry : ScheduleActionAttempt} {outcome : Outcome}
    (well : outcome.isFailure = false) (same : entry.actionId = action.id)
    (told : attemptOutcome entry = outcome) (accepted : entry.accepted = true) :
    Attempted action outcome state (state.push entry) := by
  refine ⟨⟨entry, rfl, same, told, accepted⟩, ?_, ?_, rfl, rfl, rfl, ?_⟩
  · simp [push, well]
  · exact fun fits => fits
  · exact fun none => none

theorem givesWay_short {error : LaneRejectedError} {text : String} (fits : (ExecutionResult.laneRejected error).Fits)
    (withdrawn : givesWay target error = some text) : isErrorText (some text) = true := by
  rw [isErrorText_some]
  unfold givesWay at withdrawn
  simp only [ExecutionResult.Fits] at fits
  cases reason : error.reason with
  | paused =>
    rw [reason] at withdrawn
    cases withdrawn
    decide
  | refused =>
    rw [reason] at withdrawn fits
    cases withdrawn
    exact fits
  | superseded =>
    rw [reason] at withdrawn
    cases withdrawn
    unfold powerOwner
    split <;> decide
  | busy => rw [reason] at withdrawn; cases withdrawn
  | cancelled => rw [reason] at withdrawn; cases withdrawn

theorem endAction_attempted {result : ExecutionResult} (fits : result.Fits) :
    Attempted action (result.outcome state.target) state (endAction id action startedAt now result state).state := by
  unfold endAction
  dsimp only
  split
  · rename_i text withdrawn
    split at withdrawn
    · rename_i error
      have told : (ExecutionResult.laneRejected error).outcome state.target = ⟨.notRun, some text, none⟩ := by
        simp [ExecutionResult.outcome, withdrawn]
      rw [told]
      have short := givesWay_short fits withdrawn
      exact attempted_push rfl rfl rfl (attempt_accepted id action state.target startedAt now .notRun short)
    · cases withdrawn
  · rename_i stays
    have stays : ∀ error, result = .laneRejected error → givesWay state.target error = none := by
      rintro error rfl
      exact stays
    obtain ⟨-, fails, short⟩ := failure_of_fits fits stays
    exact attempted_noteFailure short fails rfl (endedAttempt_outcome fits stays) (endedAttempt_accepted short)

/-- A command that couldn't be recorded leaves the attempt it is to. -/
theorem giveUpMark_attempted : Attempted action (Deed.unrecorded.outcome state.target) state
      (giveUpMark id action startedAt now state) := by
  have short : isErrorText (some unrecordedText) = true := by decide
  have added := @attempted_noteFailure action { state with inFlight := none } (some unrecordedText)
    (attempt id action state.target startedAt now .failed (some unrecordedText))
    ⟨.failed, some unrecordedText, none⟩ short (by decide) rfl rfl
    (attempt_accepted id action state.target startedAt now .failed short)
  exact ⟨added.attempts, added.failure, added.error, added.missing, added.target, added.activeKey,
    fun _ => added.inFlight rfl⟩

theorem stepRefusal_short {schedule : RelayScheduleProjection} (accepted : schedule.Accepted)
    (member : action ∈ schedule.actions) {refusal : String}
    (refused : stepRefusal action target = some refusal) :
    utf16Length refusal ≤ 300 := by
  unfold stepRefusal at refused
  split at refused
  · rename_i mode executions keys step
    unfold backupRefusal at refused
    obtain ⟨execution, found, said⟩ := Option.bind_eq_some_iff.mp refused
    have own := List.mem_of_find?_eq_some found
    have listed : execution ∈ executions := by
      split at own
      · exact (List.mem_filter.mp own).1
      · exact List.mem_of_find?_eq_some (Option.mem_toList.mp own)
    exact (accepted.shortRefusals action member mode executions keys step execution listed refusal said).2
  · cases refused

/-- Why an action isn't executed is short to say, and no failure. -/
theorem withheld_fits {failure : Option String} {paused : Bool} {status : ScheduleAttemptStatus}
    {reason : Option String} (accepted : id.schedule.Accepted) (member : action ∈ id.schedule.actions)
    (kept : withheld id action failure paused state = some (status, reason)) :
    isErrorText reason = true ∧ (⟨status, reason, none⟩ : Outcome).isFailure = false := by
  have inj : ∀ {said : ScheduleAttemptStatus × Option String},
      isErrorText said.2 = true → (⟨said.1, said.2, none⟩ : Outcome).isFailure = false →
      some said = some (status, reason) →
      isErrorText reason = true ∧ (⟨status, reason, none⟩ : Outcome).isFailure = false := by
    rintro said short well same
    cases same
    exact ⟨short, well⟩
  unfold withheld at kept
  split_ifs at kept with _ _ _ _ _ _ refused
  · exact inj (by decide) (by decide) kept
  · exact inj (by decide) (by decide) kept
  · exact inj (by decide) (by decide) kept
  · exact inj (by decide) (by decide) kept
  · exact inj rfl rfl kept
  · exact inj rfl rfl kept
  refine inj ?_ rfl kept
  cases refusal : stepRefusal action state.target with
  | none => simp [refusal, isSet] at refused
  | some text =>
    have short := stepRefusal_short accepted member refusal
    have lead : utf16Length "Not run: " = 9 := by decide
    rw [Option.getD_some, isErrorText_some, utf16Length_append, lead, maxErrorLength]
    omega

/-- What the check of a target finds, if it can be said, is noted. -/
theorem check_fits {found : Except (Option String) Bool}
    (fits : ∀ message, found = .error message → FitsText (errorMessage message))
    (unset : state.failure = none) (present : state.missing = false)
    (short : isErrorText state.error = true) :
    (isSet (state.check found).failure || (state.check found).missing) = !isFound found ∧
      isErrorText (state.check found).error = true := by
  rcases found with message | _ | _
  · have said := fits message rfl
    simp [check, isFound, said.isSet, said.isErrorText]
  · simp only [check, isFound, unset]
    decide
  · simp [check, isFound, unset, present, isSet, short]

end

end Kiln.Relay
