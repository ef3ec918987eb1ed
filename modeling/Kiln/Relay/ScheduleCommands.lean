import Kiln.Relay.ScheduleOccurrence

/-!
# A scheduled command is never unseen

A command that is sent to a container may run from then on, so the progress written last says so, or
says how it went, whatever stops the Relay next. Another target that takes what it writes between
the end of a command and its attempt takes neither.
-/

namespace Kiln.Relay
open Kiln.Lib Kiln.Contracts TargetExecutionState List Option

/-- An entry says that an action's command may have run. -/
def SaysInFlight (actionId : String) (entry : ScheduleActionAttempt) : Prop :=
  entry.actionId = actionId ∧ entry.status = .unknown ∧ entry.error = some inFlightText

/-- A record shows an action on the target at a place: as one that may have run, or as how it went in the end. -/
def ShowsCommand (run : ScheduleRun) (i : Nat) (actionId : String) (state : TargetExecutionState) : Prop :=
  ∃ target, run.targetRuns[i]? = some target ∧ ∃ entry ∈ target.attempts,
    SaysInFlight actionId entry ∨ entry.actionId = actionId ∧ entry ∈ state.attempts

/-- The last progress that was written shows every command that was sent. -/
def Occurrence.CommandsSeen (o : Occurrence) : Prop :=
  ∀ i actionId, (i, actionId) ∈ o.sent → ∃ fiber run, o.fibers[i]? = some fiber ∧
    o.progress = some run ∧ ShowsCommand run i actionId fiber.state

/-- A target's command was sent and has ended, and has neither its mark nor its attempt. -/
def Turn.isUnmarked : Turn → Bool
  | .executed _ _ sent _ => sent
  | _ => false

/-- No progress is taken while a target's command has neither. -/
def TakesAllMarked (o : Occurrence) : OccurrenceEvent → Prop
  | .take _ _ => o.fibers.all (!·.turn.isUnmarked) = true
  | _ => True

instance (o : Occurrence) : DecidablePred (TakesAllMarked o)
  | .take _ _ => inferInstanceAs (Decidable (o.fibers.all (!·.turn.isUnmarked) = true))
  | .check _ _ | .begin _ _ _ | .write _ _ _ | .send _ | .settle _ _ | .append _ _ | .wait _ _ _
  | .advance _ | .complete _ | .reject | .abort | .crash => isTrue trivial

variable {actionId : String} {i : Nat}

theorem ShowsCommand.of_subset {run : ScheduleRun} {state state' : TargetExecutionState}
    (shown : ShowsCommand run i actionId state) (grown : state.attempts ⊆ state'.attempts) :
    ShowsCommand run i actionId state' := by
  obtain ⟨target, found, entry, member, inFlight | ⟨same, kept⟩⟩ := shown
  · exact ⟨target, found, entry, member, .inl inFlight⟩
  · exact ⟨target, found, entry, member, .inr ⟨same, grown kept⟩⟩

/-! ## What is taken -/

variable {o : Occurrence} {fiber : TargetFiber}

/-- What is taken shows the target's own attempts, and its mark. -/
theorem run_targetRuns_get (now : Nat) (status : ScheduleRunStatus) (there : o.fibers[i]? = some fiber) :
    (o.run now status).targetRuns[i]? = some (targetRun o.id now fiber.state) := by
  simp [Occurrence.run, there]

theorem shows_of_attempt (now : Nat) (status : ScheduleRunStatus) (there : o.fibers[i]? = some fiber)
    (attempted : ∃ entry ∈ fiber.state.attempts, entry.actionId = actionId) :
    ShowsCommand (o.run now status) i actionId fiber.state := by
  obtain ⟨entry, member, same⟩ := attempted
  refine ⟨_, run_targetRuns_get now status there, entry, ?_, .inr ⟨same, member⟩⟩
  simp [targetRun, member]

theorem shows_of_mark (now : Nat) (status : ScheduleRunStatus) (there : o.fibers[i]? = some fiber)
    (marked : ∃ entry ∈ fiber.state.inFlight, SaysInFlight actionId entry) :
    ShowsCommand (o.run now status) i actionId fiber.state := by
  obtain ⟨entry, member, inFlight⟩ := marked
  refine ⟨_, run_targetRuns_get now status there, entry, ?_, .inl inFlight⟩
  simp [targetRun, mem_def.mp member]

/-! ## The invariant -/

namespace TargetFiber

/-- The command a target is about to send, or has sent, to its container. -/
def command (fiber : TargetFiber) : Option String :=
  match fiber.turn with
  | .executing action _ _ => if isInContainer action fiber.state.target then some action.id else none
  | _ => none

/-- The command a target has sent, and that may run. -/
def sentCommand (fiber : TargetFiber) : Option String :=
  match fiber.turn with
  | .executing action _ true =>
      if isInContainer action fiber.state.target then some action.id else none
  | _ => none

/-- The command a target is marking. -/
def marking (fiber : TargetFiber) : Option String :=
  match fiber.turn with
  | .marking action _ _ _ => some action.id
  | _ => none

/-- The command that was sent and has no attempt yet. -/
def unmarked (fiber : TargetFiber) : Option String :=
  match fiber.turn with
  | .executed action _ true _ => some action.id
  | _ => none

theorem command_of_sent {fiber : TargetFiber} {actionId : String}
    (sent : fiber.sentCommand = some actionId) : fiber.command = some actionId := by
  unfold sentCommand at sent
  unfold command
  split at sent
  · rename_i turn
    rwa [turn]
  · cases sent

end TargetFiber

/-- What a target keeps of its commands: while one may run its mark is there, and then its attempt. -/
structure KeepsCommands (sent : List (Nat × String)) (i : Nat) (fiber : TargetFiber) : Prop where
  marks : ∀ actionId, fiber.command = some actionId ∨ fiber.marking = some actionId →
    ∃ entry ∈ fiber.state.inFlight, SaysInFlight actionId entry
  tracks : ∀ actionId, (i, actionId) ∈ sent → (∃ entry ∈ fiber.state.attempts, entry.actionId = actionId) ∨
      fiber.sentCommand = some actionId ∨ fiber.unmarked = some actionId

/-- A command that a record has to show: one that was sent, or may be any moment. -/
def Occurrence.Due (o : Occurrence) (i : Nat) (fiber : TargetFiber) (actionId : String) : Prop :=
  (i, actionId) ∈ o.sent ∨ fiber.command = some actionId

/-- A record shows all it has to. -/
def Occurrence.ShownBy (o : Occurrence) (run : ScheduleRun) : Prop :=
  ∀ i fiber actionId, o.fibers[i]? = some fiber → o.Due i fiber actionId → ShowsCommand run i actionId fiber.state

/-- What is kept while an occurrence runs, so that its commands are seen. -/
structure Occurrence.Watched (o : Occurrence) : Prop where
  placed : ∀ entry ∈ o.sent, entry.1 < o.fibers.length
  kept : ∀ i fiber, o.fibers[i]? = some fiber → KeepsCommands o.sent i fiber
  shown : ∀ i fiber actionId, o.fibers[i]? = some fiber → o.Due i fiber actionId →
    ∃ run, o.progress = some run ∧ ShowsCommand run i actionId fiber.state
  taken : ∀ j fiber run, o.fibers[j]? = some fiber → fiber.turn.writing = some run → o.ShownBy run ∧
      ∀ actionId, fiber.marking = some actionId → ShowsCommand run j actionId fiber.state
  one : ∀ (j k : Nat) (fiber fiber' : TargetFiber), o.fibers[j]? = some fiber → o.fibers[k]? = some fiber' →
    fiber.turn.writing.isSome = true → fiber'.turn.writing.isSome = true → j = k
  waits : ∀ action rest, o.stage = .acting action rest → action.step.type = .wait →
    ∀ fiber ∈ o.fibers, fiber.turn = .waiting

theorem Occurrence.Watched.commandsSeen (watched : o.Watched) :
    o.CommandsSeen := by
  intro i actionId member
  have placed := watched.placed _ member
  obtain ⟨run, written, shows⟩ := watched.shown i o.fibers[i] actionId (by simp [placed]) (.inl member)
  exact ⟨_, run, by simp [placed], written, shows⟩

namespace Occurrence

variable {o : Occurrence} {i : Nat} {fiber fiber' : TargetFiber}

theorem ShownBy.setFiber {run : ScheduleRun} (shown : o.ShownBy run)
    (there : o.fibers[i]? = some fiber) (grown : fiber.state.attempts ⊆ fiber'.state.attempts)
    (own : ∀ actionId, fiber'.command = some actionId →
      ShowsCommand run i actionId fiber'.state) : (o.setFiber i fiber').ShownBy run := by
  intro k other actionId found owed
  rcases get_setFiber found with ⟨rfl, rfl⟩ | ⟨apart, found⟩
  · rcases owed with sent | command
    · exact (shown k fiber actionId there (.inl sent)).of_subset grown
    · exact own actionId command
  · exact shown k other actionId found owed

/-- A target that moves on, and keeps what it has to. -/
theorem Watched.replace (watched : o.Watched) (there : o.fibers[i]? = some fiber)
    (acts : ∀ action rest, o.stage = .acting action rest → action.step.type ≠ .wait)
    (grown : fiber.state.attempts ⊆ fiber'.state.attempts)
    (keeps : KeepsCommands o.sent i fiber')
    (due : ∀ actionId, fiber'.command = some actionId →
      (∃ run, o.progress = some run ∧ ShowsCommand run i actionId fiber'.state) ∧
        ∀ j other run, j ≠ i → o.fibers[j]? = some other → other.turn.writing = some run →
          ShowsCommand run i actionId fiber'.state)
    (taken : ∀ run, fiber'.turn.writing = some run → (o.setFiber i fiber').ShownBy run ∧
        (∀ actionId, fiber'.marking = some actionId → ShowsCommand run i actionId fiber'.state) ∧
        ∀ j other, j ≠ i → o.fibers[j]? = some other → other.turn.writing = none) :
    (o.setFiber i fiber').Watched := by
  refine ⟨?_, ?_, ?_, ?_, ?_, ?_⟩
  · intro entry member
    simpa [setFiber] using watched.placed entry member
  · intro k other found
    rcases get_setFiber found with ⟨rfl, rfl⟩ | ⟨-, found⟩
    · exact keeps
    · exact watched.kept k other found
  · intro k other actionId found owed
    rcases get_setFiber found with ⟨rfl, rfl⟩ | ⟨-, found⟩
    · rcases owed with sent | command
      · obtain ⟨run, written, shown⟩ := watched.shown k fiber actionId there (.inl sent)
        exact ⟨run, written, shown.of_subset grown⟩
      · exact (due actionId command).1
    · exact watched.shown k other actionId found owed
  · intro j other run found writes
    rcases get_setFiber found with ⟨rfl, rfl⟩ | ⟨apart, found⟩
    · exact ⟨(taken run writes).1, (taken run writes).2.1⟩
    · obtain ⟨shown, marking⟩ := watched.taken j other run found writes
      exact ⟨shown.setFiber there grown fun actionId command =>
        (due actionId command).2 j other run apart found writes, marking⟩
  · intro j k first second foundFirst foundSecond writes writes'
    rcases get_setFiber foundFirst with ⟨rfl, rfl⟩ | ⟨apart, foundFirst'⟩ <;>
      rcases get_setFiber foundSecond with ⟨rfl, rfl⟩ | ⟨apart', foundSecond'⟩
    · rfl
    · obtain ⟨run, isWriting⟩ := isSome_iff_exists.mp writes
      have silent := (taken run isWriting).2.2 k second apart' foundSecond'
      simp [silent] at writes'
    · obtain ⟨run, isWriting⟩ := isSome_iff_exists.mp writes'
      have silent := (taken run isWriting).2.2 j first apart foundFirst'
      simp [silent] at writes
    · exact watched.one j k first second foundFirst' foundSecond' writes writes'
  · intro action rest stage waiting
    exact absurd waiting (acts action rest stage)

/-- A target that moves on to nothing that is written or sent. -/
theorem Watched.quiet (watched : o.Watched) (there : o.fibers[i]? = some fiber)
    (acts : ∀ action rest, o.stage = .acting action rest → action.step.type ≠ .wait)
    (grown : fiber.state.attempts ⊆ fiber'.state.attempts)
    (keeps : KeepsCommands o.sent i fiber') (idle : fiber'.command = none)
    (silent : fiber'.turn.writing = none) : (o.setFiber i fiber').Watched := by
  refine watched.replace there acts grown keeps ?_ ?_
  · intro actionId command
    simp [idle] at command
  · intro run writes
    simp [silent] at writes

/-- What a target wrote is stored. -/
theorem Watched.store (watched : o.Watched) (there : o.fibers[i]? = some fiber)
    {run : ScheduleRun} (writes : fiber.turn.writing = some run) :
    ({ o with progress := some run } : Occurrence).Watched := by
  refine ⟨watched.placed, watched.kept, ?_, watched.taken, watched.one, watched.waits⟩
  intro k other actionId found owed
  exact ⟨run, rfl, (watched.taken i fiber run there writes).1 k other actionId found owed⟩

theorem Watched.send (watched : o.Watched) (there : o.fibers[i]? = some fiber) {actionId : String}
    (sentNow : fiber.sentCommand = some actionId) :
    ({ o with sent := o.sent ++ [(i, actionId)] } : Occurrence).Watched := by
  have due : ∀ k other id, o.fibers[k]? = some other →
      ({ o with sent := o.sent ++ [(i, actionId)] } : Occurrence).Due k other id →
      o.Due k other id := by
    intro k other id found owed
    rcases owed with sent | executing
    · rcases List.mem_append.mp sent with before | now
      · exact .inl before
      · cases List.mem_singleton.mp now
        cases found.symm.trans there
        exact .inr (TargetFiber.command_of_sent sentNow)
    · exact .inr executing
  refine ⟨?_, ?_, ?_, ?_, watched.one, watched.waits⟩
  · intro entry member
    rcases List.mem_append.mp member with before | now
    · exact watched.placed entry before
    · obtain rfl := List.mem_singleton.mp now
      exact (List.getElem?_eq_some_iff.mp there).1
  · intro k other found
    refine ⟨(watched.kept k other found).marks, fun id sent => ?_⟩
    rcases List.mem_append.mp sent with before | now
    · exact (watched.kept k other found).tracks id before
    · cases List.mem_singleton.mp now
      cases found.symm.trans there
      exact .inr (.inl sentNow)
  · intro k other id found owed
    exact watched.shown k other id found (due k other id found owed)
  · intro j other run found writes
    obtain ⟨shown, marking⟩ := watched.taken j other run found writes
    exact ⟨fun k other' id found' owed => shown k other' id found' (due k other' id found' owed), marking⟩

/-- What is taken, no sent command being without its mark and its attempt, shows them all. -/
theorem Watched.run_shows (watched : o.Watched) (now : Nat) (status : ScheduleRunStatus)
    (marked : ∀ fiber ∈ o.fibers, fiber.unmarked = none) : o.ShownBy (o.run now status) := by
  intro k other actionId found owed
  have executing : other.command = some actionId →
      ShowsCommand (o.run now status) k actionId other.state := fun command =>
    shows_of_mark now status found ((watched.kept k other found).marks actionId (.inl command))
  rcases owed with sent | command
  · rcases (watched.kept k other found).tracks actionId sent with attempted | running | unmarked
    · exact shows_of_attempt now status found attempted
    · exact executing (TargetFiber.command_of_sent running)
    · have none := marked other (mem_of_getElem? found)
      simp [none] at unmarked
  · exact executing command

/-! ## What one step keeps -/

theorem acts_of_turn (watched : o.Watched) (there : o.fibers[i]? = some fiber) (busy : fiber.turn ≠ .waiting) :
    ∀ action rest, o.stage = .acting action rest → action.step.type ≠ .wait :=
  fun action rest stage waiting =>
    busy (watched.waits action rest stage waiting fiber (mem_of_getElem? there))

/-- A target with no command under way keeps what it has to, whatever attempts it adds. -/
theorem keeps_of_grown (kept : KeepsCommands o.sent i fiber) (running : fiber.sentCommand = none)
    (unmarked : fiber.unmarked = none) (grown : fiber.state.attempts ⊆ fiber'.state.attempts)
    (marks : ∀ actionId, fiber'.command = some actionId ∨ fiber'.marking = some actionId →
      ∃ entry ∈ fiber'.state.inFlight, SaysInFlight actionId entry) :
    KeepsCommands o.sent i fiber' := by
  refine ⟨marks, fun actionId sent => ?_⟩
  rcases kept.tracks actionId sent with ⟨entry, member, same⟩ | executing | ended
  · exact .inl ⟨entry, grown member, same⟩
  · simp [running] at executing
  · simp [unmarked] at ended

theorem check_attempts (state : TargetExecutionState) (found : Except (Option String) Bool) :
    (state.check found).attempts = state.attempts := by
  rcases found with message | _ | _ <;> rfl

theorem noteFailure_attempts (state : TargetExecutionState) (failure : Option String) :
    (state.noteFailure failure).attempts = state.attempts := by
  unfold noteFailure
  split <;> rfl

theorem beginAction_begun (id : OccurrenceId) (action : RelayScheduleAction)
    (sequenceFailure : Option String) (paused : Bool) (now : Nat) (state : TargetExecutionState) :
    state.attempts ⊆ (beginAction id action sequenceFailure paused now state).state.attempts ∧
      (beginAction id action sequenceFailure paused now state).command = none ∧
      (beginAction id action sequenceFailure paused now state).turn.writing = none ∧
      ∀ actionId, (beginAction id action sequenceFailure paused now state).marking = some actionId →
        ∃ entry ∈ (beginAction id action sequenceFailure paused now state).state.inFlight,
          SaysInFlight actionId entry := by
  unfold beginAction
  split
  · simp [TargetFiber.command, TargetFiber.marking, Turn.writing]
  split
  · simp [TargetFiber.command, TargetFiber.marking, Turn.writing, push]
  · split
    · simp [TargetFiber.command, TargetFiber.marking, Turn.writing, SaysInFlight, attempt]
    · rename_i elsewhere
      simp [TargetFiber.command, TargetFiber.marking, Turn.writing, elsewhere]

theorem endAction_ended (id : OccurrenceId) (action : RelayScheduleAction) (startedAt now : Nat)
    (executed : ExecutionResult) (state : TargetExecutionState) :
    state.attempts ⊆ (endAction id action startedAt now executed state).state.attempts ∧
      (∃ entry ∈ (endAction id action startedAt now executed state).state.attempts, entry.actionId = action.id) ∧
      (endAction id action startedAt now executed state).command = none ∧
      (endAction id action startedAt now executed state).marking = none ∧
      (endAction id action startedAt now executed state).turn.writing = none := by
  have turn : ∀ kept : TargetExecutionState, (⟨kept, reportTurn action state.target⟩ : TargetFiber).command = none ∧
      (⟨kept, reportTurn action state.target⟩ : TargetFiber).marking = none ∧
      (reportTurn action state.target).writing = none := by
    intro kept
    unfold reportTurn
    split <;> simp [TargetFiber.command, TargetFiber.marking, Turn.writing]
  unfold endAction
  dsimp only
  split
  · refine ⟨by simp [push], ⟨_, mem_append_right _ mem_cons_self, rfl⟩, ?_⟩
    exact turn _
  · refine ⟨by simp [push, noteFailure_attempts], ⟨_, mem_append_right _ mem_cons_self, rfl⟩, ?_⟩
    exact turn _

variable {after : Occurrence}

theorem Watched.check (watched : o.Watched) (there : o.fibers[i]? = some fiber)
    {found : Except (Option String) Bool} (step : o.nextOf i fiber (.check i found) = some after) :
    after.Watched := by
  simp only [nextOf] at step
  split at step
  · rename_i stage turn
    split at step
    · cases step
    · cases step
      refine watched.quiet there (by simp [stage]) (by simp [check_attempts]) ?_ rfl rfl
      refine keeps_of_grown (watched.kept i fiber there) (by simp [TargetFiber.sentCommand, turn])
        (by simp [TargetFiber.unmarked, turn]) (by simp [check_attempts]) ?_
      simp [TargetFiber.command, TargetFiber.marking]
  · cases step

theorem Watched.begin (watched : o.Watched) (there : o.fibers[i]? = some fiber) {now : Nat}
    {paused : Bool} {after : Occurrence}
    (step : o.nextOf i fiber (.begin i now paused) = some after) : after.Watched := by
  simp only [nextOf] at step
  split at step
  · rename_i action rest stage turn
    split at step
    · cases step
    rename_i guard
    cases step
    obtain ⟨grown, command, silent, marks⟩ :=
      beginAction_begun o.id action o.sequenceFailure paused now fiber.state
    have acts : ∀ action' rest', o.stage = .acting action' rest' → action'.step.type ≠ .wait := by
      intro action' rest' stage' waiting
      cases stage.symm.trans stage'
      simp [waiting] at guard
    refine watched.quiet there acts grown ?_ command silent
    refine keeps_of_grown (watched.kept i fiber there) (by simp [TargetFiber.sentCommand, turn])
      (by simp [TargetFiber.unmarked, turn]) grown ?_
    rintro actionId (executing | marking)
    · simp [command] at executing
    · exact marks actionId marking
  · cases step

theorem Watched.settle (watched : o.Watched) (there : o.fibers[i]? = some fiber)
    {result : ExecutionResult} (step : o.nextOf i fiber (.settle i result) = some after) :
    after.Watched := by
  simp only [nextOf] at step
  split at step
  · rename_i action startedAt sent turn
    cases step
    have acts := acts_of_turn watched there (by simp [turn])
    refine watched.quiet there acts (by simp) ?_ rfl rfl
    refine ⟨by simp [TargetFiber.command, TargetFiber.marking], fun actionId member => ?_⟩
    rcases (watched.kept i fiber there).tracks actionId member with attempted | running | ended
    · exact .inl attempted
    · cases sent
      · simp [TargetFiber.sentCommand, turn] at running
      · simp only [TargetFiber.sentCommand, turn] at running
        split at running
        · exact .inr (.inr running)
        · cases running
    · simp [TargetFiber.unmarked, turn] at ended
  · cases step

variable {now : Nat}

theorem Watched.append (watched : o.Watched) (there : o.fibers[i]? = some fiber)
    (step : o.nextOf i fiber (.append i now) = some after) : after.Watched := by
  simp only [nextOf] at step
  split at step
  · rename_i action startedAt sent result turn
    cases step
    obtain ⟨grown, attempted, command, marking, silent⟩ :=
      endAction_ended o.id action startedAt now result fiber.state
    have acts := acts_of_turn watched there (by simp [turn])
    refine watched.quiet there acts grown ⟨by simp [command, marking], ?_⟩ command silent
    intro actionId member
    rcases (watched.kept i fiber there).tracks actionId member with ⟨entry, kept, same⟩ | run | ended
    · exact .inl ⟨entry, grown kept, same⟩
    · simp [TargetFiber.sentCommand, turn] at run
    · cases sent
      · simp [TargetFiber.unmarked, turn] at ended
      · simp only [TargetFiber.unmarked, turn, Option.some.injEq] at ended
        exact .inl (ended ▸ attempted)
  · cases step

theorem Watched.sends (watched : o.Watched) (there : o.fibers[i]? = some fiber)
    (step : o.nextOf i fiber (.send i) = some after) : after.Watched := by
  simp only [nextOf] at step
  split at step
  · rename_i action startedAt turn
    split at step
    · rename_i inContainer
      cases step
      have acts := acts_of_turn watched there (by simp [turn])
      have command : fiber.command = some action.id := by
        simp [TargetFiber.command, turn, inContainer]
      have kept := watched.kept i fiber there
      have flagged : (o.setFiber i ⟨fiber.state, .executing action startedAt true⟩).Watched := by
        refine watched.replace there acts (by simp) ⟨?_, ?_⟩ ?_ (by simp [Turn.writing])
        · rintro actionId (running | marking)
          · refine kept.marks actionId (.inl (command.trans ?_))
            simpa [TargetFiber.command, inContainer] using running
          · cases marking
        · intro actionId member
          rcases kept.tracks actionId member with attempted | running | ended
          · exact .inl attempted
          · simp [TargetFiber.sentCommand, turn] at running
          · simp [TargetFiber.unmarked, turn] at ended
        · intro actionId running
          have due : o.Due i fiber actionId := .inr (command.trans (by
            simpa [TargetFiber.command, inContainer] using running))
          refine ⟨watched.shown i fiber actionId there due, fun j other run _ found writes => ?_⟩
          exact (watched.taken j other run found writes).1 i fiber actionId there due
      have placed := (List.getElem?_eq_some_iff.mp there).1
      have found : (o.setFiber i ⟨fiber.state, .executing action startedAt true⟩).fibers[i]? =
          some ⟨fiber.state, .executing action startedAt true⟩ := by simp [setFiber, placed]
      exact flagged.send found (by simp [TargetFiber.sentCommand, inContainer])
    · cases step
  · cases step

theorem Watched.taking (watched : o.Watched) (there : o.fibers[i]? = some fiber) {turn : Turn}
    (marked : ∀ fiber ∈ o.fibers, fiber.unmarked = none)
    (silent : ∀ fiber ∈ o.fibers, fiber.turn.writing = none) (busy : fiber.turn ≠ .waiting)
    (running : fiber.sentCommand = none)
    (command : (⟨fiber.state, turn⟩ : TargetFiber).command = none)
    (writes : turn.writing = some (o.run now .running))
    (same : (⟨fiber.state, turn⟩ : TargetFiber).marking = fiber.marking) :
    (o.setFiber i ⟨fiber.state, turn⟩).Watched := by
  have acts := acts_of_turn watched there busy
  have kept := watched.kept i fiber there
  refine watched.replace there acts (by simp) ?_ (by simp [command]) ?_
  · refine keeps_of_grown kept running (marked fiber (mem_of_getElem? there)) (by simp) ?_
    rintro actionId (executing | marking)
    · simp [command] at executing
    · exact kept.marks actionId (.inr (same ▸ marking))
  · intro run own
    cases writes.symm.trans own
    refine ⟨(watched.run_shows now .running marked).setFiber there (by simp) (by simp [command]),
      fun actionId marking => ?_, fun j other _ found => silent other (mem_of_getElem? found)⟩
    have shown := shows_of_mark now .running there (kept.marks actionId (.inr (same ▸ marking)))
    exact shown

theorem Watched.throws (watched : o.Watched) (there : o.fibers[i]? = some fiber)
    (busy : fiber.turn ≠ .waiting) (running : fiber.sentCommand = none)
    (unmarked : fiber.unmarked = none) : (o.setFiber i ⟨fiber.state, .thrown⟩).Watched := by
  have acts := acts_of_turn watched there busy
  refine watched.quiet there acts (by simp) ?_ rfl rfl
  refine keeps_of_grown (watched.kept i fiber there) running unmarked (by simp) ?_
  simp [TargetFiber.command, TargetFiber.marking]

theorem unmarked_of_taking (marked : TakesAllMarked o (.take i now)) : ∀ fiber ∈ o.fibers, fiber.unmarked = none := by
  intro fiber member
  have held := all_eq_true.mp marked fiber member
  unfold TargetFiber.unmarked
  split
  · rename_i turn
    simp [turn, Turn.isUnmarked] at held
  · rfl

theorem Watched.take (watched : o.Watched) (there : o.fibers[i]? = some fiber)
    (marked : TakesAllMarked o (.take i now)) (step : o.nextOf i fiber (.take i now) = some after) :
    after.Watched := by
  have marked := unmarked_of_taking marked
  have unmarked := marked fiber (mem_of_getElem? there)
  simp only [nextOf] at step
  split at step
  · cases step
  rename_i idle
  have silent : ∀ fiber ∈ o.fibers, fiber.turn.writing = none := by
    intro other member
    simpa using mt (any_eq_true.mpr ⟨other, member, ·⟩) idle
  unfold Occurrence.taken at step
  split at step
  · rename_i action startedAt left turn
    have busy : fiber.turn ≠ .waiting := by simp [turn]
    have running : fiber.sentCommand = none := by simp [TargetFiber.sentCommand, turn]
    split at step
    · rename_i run parsed
      obtain ⟨-, rfl⟩ := scheduleRunSchema.parse_eq_some.mp parsed
      cases step
      exact watched.taking there marked silent busy running rfl rfl (by simp [TargetFiber.marking, turn])
    · cases step
      exact watched.throws there busy running unmarked
  · rename_i turn
    have busy : fiber.turn ≠ .waiting := by simp [turn]
    have running : fiber.sentCommand = none := by simp [TargetFiber.sentCommand, turn]
    split at step
    · rename_i run parsed
      obtain ⟨-, rfl⟩ := scheduleRunSchema.parse_eq_some.mp parsed
      cases step
      exact watched.taking there marked silent busy running rfl rfl (by simp [TargetFiber.marking, turn])
    · cases step
      exact watched.throws there busy running unmarked
  · cases step

theorem giveUpMark_attempts (id : OccurrenceId) (action : RelayScheduleAction)
    (startedAt now : Nat) (state : TargetExecutionState) :
    state.attempts ⊆ (giveUpMark id action startedAt now state).attempts := by
  simp [giveUpMark, push, noteFailure_attempts]

theorem Watched.write (watched : o.Watched) (there : o.fibers[i]? = some fiber) {now : Nat}
    {stored : Bool} {after : Occurrence}
    (step : o.nextOf i fiber (.write i now stored) = some after) : after.Watched := by
  simp only [nextOf] at step
  unfold Occurrence.written at step
  have kept := watched.kept i fiber there
  split at step
  · rename_i action startedAt left run turn
    have acts := acts_of_turn watched there (by simp [turn])
    have running : fiber.sentCommand = none := by simp [TargetFiber.sentCommand, turn]
    have unmarked : fiber.unmarked = none := by simp [TargetFiber.unmarked, turn]
    have marks : ∃ entry ∈ fiber.state.inFlight, SaysInFlight action.id entry :=
      kept.marks action.id (.inr (by simp [TargetFiber.marking, turn]))
    have writes : fiber.turn.writing = some run := by simp [turn, Turn.writing]
    split at step
    · cases step
      -- The command may be sent from here on, and what was just stored shows it.
      have stored := watched.store there writes
      have shown := (watched.taken i fiber run there writes).2 action.id (by simp [TargetFiber.marking, turn])
      have named : ∀ actionId, (⟨fiber.state, .executing action startedAt false⟩ : TargetFiber).command =
            some actionId → action.id = actionId := by
        intro actionId command
        simp only [TargetFiber.command] at command
        split at command
        · exact Option.some.inj command
        · cases command
      refine stored.replace there acts (by simp) ?_ ?_ (by simp [Turn.writing])
      · refine keeps_of_grown kept running unmarked (by simp) ?_
        rintro actionId (command | marking)
        · exact named actionId command ▸ marks
        · cases marking
      · intro actionId command
        obtain rfl := named actionId command
        refine ⟨⟨run, rfl, shown⟩, fun j other run' apart found writes' => ?_⟩
        have both := watched.one i j fiber other there found (by simp [writes]) (by simp [writes'])
        exact absurd both.symm apart
    · split at step
      · cases step
        refine watched.quiet there acts (by simp) ?_ rfl rfl
        refine keeps_of_grown kept running unmarked (by simp) ?_
        rintro actionId (executing | marking)
        · cases executing
        · cases marking
          exact marks
      · cases step
        refine watched.quiet there acts (giveUpMark_attempts ..) ?_ rfl rfl
        refine keeps_of_grown kept running unmarked (giveUpMark_attempts ..) ?_
        simp [TargetFiber.command, TargetFiber.marking]
  · rename_i run turn
    have acts := acts_of_turn watched there (by simp [turn])
    have running : fiber.sentCommand = none := by simp [TargetFiber.sentCommand, turn]
    have unmarked : fiber.unmarked = none := by simp [TargetFiber.unmarked, turn]
    have keeps : KeepsCommands o.sent i ⟨fiber.state, .ended⟩ := by
      refine keeps_of_grown kept running unmarked (by simp) ?_
      simp [TargetFiber.command, TargetFiber.marking]
    split at step
    · cases step
      have stored := watched.store there (by simp [turn, Turn.writing] : _ = some run)
      exact stored.quiet there acts (by simp) keeps rfl rfl
    · cases step
      exact watched.quiet there acts (by simp) keeps rfl rfl
  · cases step

/-- Every target is given the next action, none having anything under way. -/
theorem Watched.toAct (watched : o.Watched) (idle : ∀ fiber ∈ o.fibers, fiber.turn = .waiting ∨ fiber.turn = .ended)
    (stage : OccurrenceStage) :
    ({ o with stage, fibers := o.fibers.map .toAct } : Occurrence).Watched := by
  have origin : ∀ (k : Nat) other, (o.fibers.map TargetFiber.toAct)[k]? = some other →
      ∃ fiber, o.fibers[k]? = some fiber ∧ other = TargetFiber.toAct fiber := by
    intro k other found
    rw [getElem?_map] at found
    obtain ⟨fiber, there, rfl⟩ := map_eq_some_iff.mp found
    exact ⟨fiber, there, rfl⟩
  have tracked : ∀ (k : Nat) fiber actionId, o.fibers[k]? = some fiber → (k, actionId) ∈ o.sent →
      ∃ entry ∈ fiber.state.attempts, entry.actionId = actionId := by
    intro k fiber actionId there member
    rcases (watched.kept k fiber there).tracks actionId member with attempted | running | ended
    · exact attempted
    · rcases idle fiber (mem_of_getElem? there) with turn | turn <;>
        simp [TargetFiber.sentCommand, turn] at running
    · rcases idle fiber (mem_of_getElem? there) with turn | turn <;>
        simp [TargetFiber.unmarked, turn] at ended
  refine ⟨?_, ?_, ?_, ?_, ?_, ?_⟩
  · intro entry member
    simpa using watched.placed entry member
  · intro k other found
    obtain ⟨fiber, there, rfl⟩ := origin k other found
    refine ⟨by simp [TargetFiber.toAct, TargetFiber.command, TargetFiber.marking], ?_⟩
    exact fun actionId member => .inl (tracked k fiber actionId there member)
  · intro k other actionId found owed
    obtain ⟨fiber, there, rfl⟩ := origin k other found
    rcases owed with sent | command
    · exact watched.shown k fiber actionId there (.inl sent)
    · cases command
  · intro j other run found writes
    obtain ⟨fiber, there, rfl⟩ := origin j other found
    cases writes
  · intro j k first second foundFirst foundSecond writes
    obtain ⟨fiber, there, rfl⟩ := origin j first foundFirst
    cases writes
  · intro action rest acting waiting other member
    obtain ⟨fiber, -, rfl⟩ := mem_map.mp member
    rfl

theorem Watched.proceed (watched : o.Watched)
    (idle : ∀ fiber ∈ o.fibers, fiber.turn = .waiting ∨ fiber.turn = .ended) (now : Nat)
    (actions : List RelayScheduleAction) : (o.proceed now actions).Watched := by
  unfold Occurrence.proceed
  split
  · exact watched.toAct idle _
  · split
    · exact { watched with waits := by simp }
    · exact { watched with waits := by simp }

theorem Watched.endWait (watched : o.Watched) (action : RelayScheduleAction)
    (startedAt now : Nat) (failure : Option (Option String)) :
    (o.endWait action startedAt now failure).Watched :=
  { watched with }

theorem Watched.start (id : OccurrenceId) (now : Nat) (active : List String) :
    (Occurrence.start id now active).Watched := by
  have idle : ∀ fiber ∈ (Occurrence.start id now active).fibers, fiber.turn = .waiting ∨ fiber.turn = .ended := by
    intro fiber member
    obtain ⟨state, -, rfl⟩ := mem_map.mp member
    unfold TargetFiber.toCheck
    split
    · exact .inr rfl
    · exact .inl rfl
  have silent : ∀ (k : Nat) fiber, (Occurrence.start id now active).fibers[k]? = some fiber →
      fiber.command = none ∧ fiber.marking = none ∧ fiber.turn.writing = none := by
    intro k fiber there
    rcases idle fiber (mem_of_getElem? there) with turn | turn <;>
      simp [TargetFiber.command, TargetFiber.marking, Turn.writing, turn]
  refine ⟨by simp [Occurrence.start], ?_, ?_, ?_, ?_, by simp [Occurrence.start]⟩
  · intro k fiber there
    exact ⟨by simp [silent k fiber there], by simp [Occurrence.start]⟩
  · intro k fiber actionId there owed
    rcases owed with sent | command
    · simp [Occurrence.start] at sent
    · simp [silent k fiber there] at command
  · intro k fiber run there writes
    simp [silent k fiber there] at writes
  · intro j k fiber fiber' there there' writes
    simp [silent j fiber there] at writes

/-- Each step keeps it, if no progress is taken while a command has neither mark nor attempt. -/
theorem Watched.next (watched : o.Watched) {event : OccurrenceEvent}
    (marked : TakesAllMarked o event) (step : o.next event = some after) :
    after.Watched := by
  simp only [Occurrence.next] at step
  split at step
  · cases step
  cases event with
  | check i found =>
    obtain ⟨fiber, there, step⟩ := bind_eq_some_iff.mp step
    exact watched.check there step
  | begin i now paused =>
    obtain ⟨fiber, there, step⟩ := bind_eq_some_iff.mp step
    exact watched.begin there step
  | take i now =>
    obtain ⟨fiber, there, step⟩ := bind_eq_some_iff.mp step
    exact watched.take there marked step
  | write i now stored =>
    obtain ⟨fiber, there, step⟩ := bind_eq_some_iff.mp step
    exact watched.write there step
  | send i =>
    obtain ⟨fiber, there, step⟩ := bind_eq_some_iff.mp step
    exact watched.sends there step
  | settle i result =>
    obtain ⟨fiber, there, step⟩ := bind_eq_some_iff.mp step
    exact watched.settle there step
  | append i now =>
    obtain ⟨fiber, there, step⟩ := bind_eq_some_iff.mp step
    exact watched.append there step
  | wait startedAt now failure =>
    dsimp only at step
    split at step
    · rename_i action rest stage
      split at step
      · cases step
      rename_i waiting
      cases step
      refine (watched.endWait action startedAt now failure).proceed ?_ now rest
      intro fiber member
      simp only [Bool.or_eq_true, decide_eq_true_eq, not_or, not_not] at waiting
      exact .inl (watched.waits action rest stage waiting.2 fiber member)
    · cases step
  | advance now =>
    dsimp only at step
    split at step
    · cases step
    rename_i guard
    simp only [Bool.or_eq_true, Bool.not_eq_true', not_or, Bool.not_eq_false] at guard
    have idle : ∀ fiber ∈ o.fibers, fiber.turn = .waiting ∨ fiber.turn = .ended :=
      fun fiber member => .inr (Turn.eq_of_isEnded (all_eq_true.mp guard.2 fiber member))
    split at step
    · cases step
      exact watched.proceed idle now _
    · split at step
      · cases step
      · cases step
        exact watched.proceed idle now _
    · cases step
  | complete stored =>
    dsimp only at step
    split at step
    · split at step
      · cases step
      · split at step
        · cases step
          exact { watched with waits := by simp }
        · cases step
          exact watched
    · cases step
  | reject =>
    dsimp only at step
    split at step
    · cases step
      exact { watched with waits := by simp }
    · cases step
  | abort =>
    cases step
    exact { watched with }
  | crash =>
    cases step
    exact { watched with }

end Occurrence

/-- However the targets of an occurrence take turns, and whatever fails or stops, the progress
    written last shows each command that was sent to a container, if none was taken while one of
    them had neither its mark nor its attempt. -/
theorem commands_seen {id : OccurrenceId} {o : Occurrence}
    (reached : ((occurrenceSystem id).restrict TakesAllMarked).Reachable o) : o.CommandsSeen := by
  refine Occurrence.Watched.commandsSeen (System.Reachable.invariant ?_ ?_ reached)
  · rintro o ⟨now, active, rfl⟩
    exact .start id now active
  · intro o event after watched step
    exact watched.next step.1 step.2

/-- A schedule that runs a command in two Apps. -/
def shopSchedule : RelayScheduleProjection where
  id := "nightly"
  revision := 1
  cron := "0 4 * * *"
  targets := [⟨"shop", .app, "Shop", "relay"⟩, ⟨"blog", .app, "Blog", "relay"⟩]
  actions := [⟨"command", .consoleCommand "sync" [("relay:app:shop", "web"), ("relay:app:blog", "web")]
    true (some ["relay:app:shop", "relay:app:blog"])⟩]

def shopOccurrence : OccurrenceId := ⟨shopSchedule, 5, "relay"⟩

/-- The shop's command is recorded and sent. -/
def sentEvents : List OccurrenceEvent :=
  [.check 0 (.ok true), .check 1 (.ok true), .advance 6, .begin 0 7 false, .begin 1 7 false,
    .take 0 7, .write 0 8 true, .send 0]

theorem commands_seen_sent : ∃ o : Occurrence, (0, "command") ∈ o.sent ∧ o.CommandsSeen := by
  have reached := System.reachable_of_guardedRunAll (occurrenceSystem shopOccurrence).init
    Occurrence.next TakesAllMarked ⟨5, [], rfl⟩ sentEvents (by decide)
  exact ⟨_, by decide, commands_seen reached⟩

/-- It ends, and before its attempt is there the blog's record is taken. -/
def unseenEvents : List OccurrenceEvent :=
  sentEvents ++ [.settle 0 (.done none), .take 1 9, .write 1 9 true, .crash]

/-- A crash then leaves a command that ran and a record that doesn't show it. -/
theorem command_unseen :
    ∃ o, (occurrenceSystem shopOccurrence).Reachable o ∧ ¬ o.CommandsSeen := by
  obtain ⟨o, ran, sent, run, written, empty⟩ : ∃ o,
      runAll Occurrence.next (.start shopOccurrence 5 []) unseenEvents = some o ∧
      (0, "command") ∈ o.sent ∧ ∃ run, o.progress = some run ∧
        (run.targetRuns[0]?).map (·.attempts) = some [] :=
    ⟨_, rfl, by decide, _, rfl, by decide⟩
  refine ⟨o, ⟨_, unseenEvents, ⟨5, [], rfl⟩, System.run_of_runAll ran⟩, fun seen => ?_⟩
  obtain ⟨fiber, run', -, written', target, found, entry, member, -⟩ := seen 0 "command" sent
  cases written.symm.trans written'
  simp only [found, Option.map_some, Option.some.injEq] at empty
  simp [empty] at member

end Kiln.Relay
