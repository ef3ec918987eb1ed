import Kiln.Relay.ScheduleTold

/-!
# Every occurrence records its result

An occurrence that is let run, and whose texts fit, never throws: it always has a next step, there are
only so many of them apart from what its storage fails, and what it writes in the end tells what
happened in it.
-/

namespace Kiln.Relay
open Kiln.Lib Kiln.Contracts Kiln.Operations Occurrence TargetFiber List

/-! ## As it begins -/

theorem targetStates_targets (now : Nat) (active : List String) (targets : List ScheduleTarget) :
    (targetStates now active targets).map (·.target) = targets := by
  induction targets generalizing active with
  | nil => rfl
  | cons target rest ih =>
    simp only [targetStates]
    split <;> simp [ih]

theorem targetStates_fresh (now : Nat) (active : List String) (targets : List ScheduleTarget)
    {state : TargetExecutionState} (member : state ∈ targetStates now active targets) :
    state.attempts = [] ∧ state.inFlight = none ∧ state.error = none ∧ state.failure = none ∧
      state.missing = false := by
  induction targets generalizing active with
  | nil => cases member
  | cons target rest ih =>
    simp only [targetStates] at member
    split at member <;> rcases mem_cons.mp member with rfl | later
    · exact ⟨rfl, rfl, rfl, rfl, rfl⟩
    · exact ih active later
    · exact ⟨rfl, rfl, rfl, rfl, rfl⟩
    · exact ih _ later

theorem Told.start (id : OccurrenceId) (now : Nat) (active : List String) :
    Told (targetStates now active id.schedule.targets) (.start id now active) [] := by
  have origin : ∀ (i : Nat) fiber, (Occurrence.start id now active).fibers[i]? = some fiber →
      ∃ state ∈ targetStates now active id.schedule.targets, fiber = .toCheck state := by
    intro i fiber there
    obtain ⟨state, member, rfl⟩ := mem_map.mp (mem_of_getElem? there)
    exact ⟨state, member, rfl⟩
  have idle : ∀ state, (toCheck state).turn.isIdle = true := by
    intro state
    unfold toCheck
    split <;> rfl
  refine ⟨⟨targetStates_targets now active _, ?_, ?_, rfl, by simp [Occurrence.start], by simp, rfl,
    rfl⟩, fun _ => rfl, ?_⟩
  · simp [Occurrence.start, toCheck]
  · intro i fiber there
    obtain ⟨state, member, rfl⟩ := origin i fiber there
    obtain ⟨attempts, inFlight, error, failure, missing⟩ := targetStates_fresh now active _ member
    have same : (toCheck state).state = state := rfl
    refine ⟨?_, ?_, ?_, ?_, ?_, ?_, ?_, fun _ => ⟨rfl, idle state⟩⟩
    · simp [same, attempts]
    · simp [same, attempts]
    · simp [same, inFlight]
    · simp [same, error]
    · simp [same, failure, missing, isSet]
    · intro _ _ _ _ executed
      have idle := idle state
      simp [executed, Turn.isIdle] at idle
    · intro thrown
      have idle := idle state
      simp [thrown, Turn.isIdle] at idle
  · refine ⟨⟨rfl, fun _ _ _ _ => rfl, ?_⟩, ?_⟩
    · intro fiber member
      obtain ⟨state, -, rfl⟩ := mem_map.mp member
      exact idle state
    · intro i fiber there _
      obtain ⟨state, member, rfl⟩ := origin i fiber there
      obtain ⟨-, -, -, failure, missing⟩ := targetStates_fresh now active _ member
      exact ⟨failure, missing, rfl⟩

/-! ## How much there is to do -/

/-- The most steps a target has left in its action. -/
def Turn.work : Turn → Nat
  | .waiting => 14
  | .marking _ _ left .asking => 2 * left + 7
  | .marking _ _ left (.writing _) => 2 * left + 6
  | .executing _ _ sent => if sent then 4 else 5
  | .executed .. => 3
  | .reporting .asking => 2
  | .reporting (.writing _) => 1
  | .ended | .thrown => 0

/-- The most steps that are left of an occurrence, apart from what its storage fails. -/
def Occurrence.work (o : Occurrence) : Nat :=
  (o.fibers.map (·.turn.work)).sum +
    match o.stage with
    | .checking => o.id.schedule.actions.length * (14 * o.fibers.length + 1) + 2
    | .acting _ rest => rest.length * (14 * o.fibers.length + 1) + 2
    | .completing _ => 1
    | .completed | .rejected => 0

variable {fiber : TargetFiber} {i : Nat}

theorem sum_set_lt {fibers : List TargetFiber} {fiber' : TargetFiber}
    (there : fibers[i]? = some fiber) (less : fiber'.turn.work < fiber.turn.work) :
    ((fibers.set i fiber').map (·.turn.work)).sum < (fibers.map (·.turn.work)).sum := by
  induction fibers generalizing i with
  | nil => cases there
  | cons first rest ih =>
    cases i with
    | zero =>
      cases there
      simpa using less
    | succ i =>
      have later := ih there
      simpa using later

variable {o : Occurrence}

theorem work_setFiber {fiber' : TargetFiber} (there : o.fibers[i]? = some fiber)
    (less : fiber'.turn.work < fiber.turn.work) :
    (o.setFiber i fiber').work < o.work := by
  have sum := sum_set_lt there less
  simp only [work, setFiber, length_set]
  omega

theorem sum_toAct (fibers : List TargetFiber) : ((fibers.map toAct).map (·.turn.work)).sum = 14 * fibers.length := by
  induction fibers with
  | nil => rfl
  | cons first rest ih =>
    simp only [map_cons, sum_cons, ih, length_cons]
    simp only [toAct, Turn.work]
    omega

theorem work_proceed (o : Occurrence) (now : Nat) (rest : List RelayScheduleAction) :
    (o.proceed now rest).work < (o.fibers.map (·.turn.work)).sum + rest.length * (14 * o.fibers.length + 1) + 2 := by
  cases rest with
  | nil =>
    cases parsed : scheduleRunSchema.parse (o.run now (o.status now)) <;>
      simp [proceed, parsed, work]
  | cons action rest =>
    have sum := sum_toAct o.fibers
    simp only [proceed, work, sum, length_map, length_cons, Nat.add_mul]
    omega

theorem work_beginAction (id : OccurrenceId) (action : RelayScheduleAction)
    (failure : Option String) (paused : Bool) (now : Nat) (state : TargetExecutionState) :
    (beginAction id action failure paused now state).turn.work < 14 := by
  unfold beginAction
  split
  · simp [Turn.work]
  · split
    · simp [Turn.work]
    · split <;> simp [Turn.work]

theorem work_endAction (id : OccurrenceId) (action : RelayScheduleAction) (startedAt now : Nat)
    (executed : ExecutionResult) (state : TargetExecutionState) :
    (endAction id action startedAt now executed state).turn.work < 3 := by
  unfold endAction reportTurn
  dsimp only
  split <;> split <;> simp [Turn.work]

variable {event : OccurrenceEvent} {after : Occurrence}

/-- Each step leaves less to do, but a failure to store the result. -/
theorem work_next {initial : List TargetExecutionState} {story : List Happening}
    (told : Told initial o story) (run : IsLetRun event) (stored : event ≠ .complete false)
    (step : o.next event = some after) :
    after.work < o.work := by
  simp only [Occurrence.next, told.uncrashed, Bool.false_eq_true, if_false] at step
  cases event with
  | check i found =>
    obtain ⟨fiber, there, step⟩ := Option.bind_eq_some_iff.mp step
    simp only [nextOf] at step
    split at step
    · rename_i turn
      split at step
      · cases step
      · cases step
        exact work_setFiber there (by simp [turn, Turn.work])
    · cases step
  | begin i now paused =>
    obtain ⟨fiber, there, step⟩ := Option.bind_eq_some_iff.mp step
    simp only [nextOf] at step
    split at step
    · rename_i turn
      split at step
      · cases step
      · cases step
        refine work_setFiber there ?_
        simpa [turn, Turn.work] using work_beginAction ..
    · cases step
  | take i now =>
    obtain ⟨fiber, there, step⟩ := Option.bind_eq_some_iff.mp step
    simp only [nextOf] at step
    split at step
    · cases step
    unfold Occurrence.taken at step
    split at step
    · rename_i turn
      split at step <;> obtain rfl := Option.some.inj step <;>
        exact work_setFiber there (by simp [turn, Turn.work])
    · rename_i turn
      split at step <;> obtain rfl := Option.some.inj step <;>
        exact work_setFiber there (by simp [turn, Turn.work])
    · cases step
  | write i now stored =>
    obtain ⟨fiber, there, step⟩ := Option.bind_eq_some_iff.mp step
    simp only [nextOf] at step
    unfold Occurrence.written at step
    split at step
    · rename_i action startedAt left run turn
      split at step
      · cases step
        refine work_setFiber there ?_
        simp only [turn, Turn.work, Bool.false_eq_true, if_false]
        omega
      · split at step
        · cases step
          refine work_setFiber there ?_
          simp only [turn, Turn.work]
          omega
        · cases step
          exact work_setFiber there (by simp [turn, Turn.work])
    · rename_i turn
      split at step <;> obtain rfl := Option.some.inj step <;>
        exact work_setFiber there (by simp [turn, Turn.work])
    · cases step
  | send i =>
    obtain ⟨fiber, there, step⟩ := Option.bind_eq_some_iff.mp step
    simp only [nextOf] at step
    split at step
    · rename_i turn
      split at step
      · cases step
        exact work_setFiber there (by simp [turn, Turn.work])
      · cases step
    · cases step
  | settle i result =>
    obtain ⟨fiber, there, step⟩ := Option.bind_eq_some_iff.mp step
    simp only [nextOf] at step
    split at step
    · rename_i turn
      cases step
      refine work_setFiber there ?_
      simp only [turn, Turn.work]
      split <;> omega
    · cases step
  | append i now =>
    obtain ⟨fiber, there, step⟩ := Option.bind_eq_some_iff.mp step
    simp only [nextOf] at step
    split at step
    · rename_i turn
      cases step
      refine work_setFiber there ?_
      simpa [turn, Turn.work] using work_endAction ..
    · cases step
  | wait startedAt now failure =>
    dsimp only at step
    split at step
    · rename_i action rest acting
      split at step
      · cases step
      · cases step
        have less := work_proceed (o.endWait action startedAt now failure) now rest
        simpa [work, acting, endWait, Nat.add_assoc] using less
    · cases step
  | advance now =>
    dsimp only at step
    split at step
    · cases step
    split at step
    · rename_i checking
      cases step
      simpa [work, checking, Nat.add_assoc] using work_proceed o now o.id.schedule.actions
    · rename_i action rest acting
      split at step
      · cases step
      · cases step
        simpa [work, acting, Nat.add_assoc] using work_proceed o now rest
    · cases step
  | complete stored' =>
    dsimp only at step
    split at step
    · rename_i completing
      split at step
      · cases step
      · split at step
        · cases step
          simp [work, completing]
        · rename_i failed
          exact absurd (by simpa using failed : stored' = false) (fun same => stored (same ▸ rfl))
    · cases step
  | reject =>
    dsimp only at step
    split at step
    · rename_i thrown
      simp [told.not_thrown] at thrown
    · cases step
  | abort => exact run.elim
  | crash => exact run.elim

/-! ## There is always a next step -/

section

variable {initial : List TargetExecutionState} {o : Occurrence} {story : List Happening} {i : Nat} {fiber : TargetFiber}

/-- A step can be made that isn't a failure of the storage. -/
def Occurrence.GoesOn (o : Occurrence) : Prop :=
  ∃ event after, IsLetRun event ∧ TextsFit event ∧ event ≠ .complete false ∧ o.next event = some after

theorem goesOn_of_writing (told : Told initial o story) (there : o.fibers[i]? = some fiber)
    {run : ScheduleRun} (writes : fiber.turn.writing = some run) : o.GoesOn := by
  have next : ∃ after, o.next (.write i 0 true) = some after := by
    simp only [Occurrence.next, told.uncrashed, Bool.false_eq_true, if_false, there,
      Option.bind_some, nextOf, Occurrence.written]
    unfold Turn.writing at writes
    split at writes
    · rename_i turn
      exact ⟨_, rfl⟩
    · rename_i turn
      exact ⟨_, rfl⟩
    · cases writes
  obtain ⟨after, next⟩ := next
  exact ⟨.write i 0 true, after, trivial, trivial, by simp, next⟩

/-- A target with work under way goes on, if none of them writes. -/
theorem goesOn_of_under (told : Told initial o story) (there : o.fibers[i]? = some fiber)
    (under : fiber.turn.isIdle = false) (silent : o.fibers.any (·.turn.writing.isSome) = false) :
    o.GoesOn := by
  have mine := told.fibers i fiber there
  have mute : fiber.turn.writing = none := by
    simpa using any_eq_false.mp silent fiber (mem_of_getElem? there)
  have next (event : OccurrenceEvent) (after : Occurrence) (turns : o.nextOf i fiber event = some after)
      (own : o.next event = o.fibers[i]?.bind fun fiber => o.nextOf i fiber event) :
      o.next event = some after := by
    rw [own, there, Option.bind_some, turns]
  have taken (after : Occurrence) (taken : o.taken i 0 fiber.state fiber.turn = some after) :
      o.GoesOn := by
    refine ⟨.take i 0, after, trivial, trivial, by simp, next _ after ?_ ?_⟩
    · simp [nextOf, silent, taken]
    · simp [Occurrence.next, told.uncrashed]
  cases turn : fiber.turn with
  | waiting => simp [turn, Turn.isIdle] at under
  | ended => simp [turn, Turn.isIdle] at under
  | thrown => exact absurd turn mine.sane
  | marking action startedAt left recording =>
    cases recording with
    | writing run => simp [turn, Turn.writing] at mute
    | asking =>
      cases parsed : scheduleRunSchema.parse (o.run 0 .running) <;>
        exact taken _ (by rw [turn, Occurrence.taken, parsed])
  | reporting recording =>
    cases recording with
    | writing run => simp [turn, Turn.writing] at mute
    | asking =>
      cases parsed : scheduleRunSchema.parse (o.run 0 .running) <;>
        exact taken _ (by rw [turn, Occurrence.taken, parsed])
  | executing action startedAt sent =>
    refine ⟨.settle i (.done none), o.setFiber i ⟨{ fiber.state with inFlight := none },
      .executed action startedAt sent (.done none)⟩, trivial, trivial, by simp, next _ _ ?_ ?_⟩
    · simp [nextOf, turn]
    · simp [Occurrence.next, told.uncrashed]
  | executed action startedAt sent result =>
    refine ⟨.append i 0, o.setFiber i (endAction o.id action startedAt 0 result fiber.state),
      trivial, trivial, by simp, next _ _ ?_ ?_⟩
    · simp [nextOf, turn]
    · simp [Occurrence.next, told.uncrashed]

/-- Where nothing is under way, the targets that wait begin, or all go on. -/
theorem waiting_of_idle (idle : ∀ fiber ∈ o.fibers, fiber.turn.isIdle = true)
    (unended : o.fibers.all (·.turn.isEnded) = false) :
    ∃ (i : Nat) (fiber : TargetFiber), o.fibers[i]? = some fiber ∧ fiber.turn = .waiting := by
  obtain ⟨fiber, member, notEnded⟩ := all_eq_false.mp unended
  obtain ⟨i, there⟩ := getElem?_of_mem member
  refine ⟨i, fiber, there, ?_⟩
  have idle := idle fiber member
  cases turn : fiber.turn <;> simp_all [Turn.isIdle, Turn.isEnded]

theorem Told.goesOn (told : Told initial o story) (unfinished : o.result = none) : o.GoesOn := by
  have stage := told.stage
  unfold StageTold at stage
  split at stage
  · rename_i checking
    cases ended : o.fibers.all (·.turn.isEnded) with
    | true =>
      refine ⟨.advance 0, o.proceed 0 o.id.schedule.actions, trivial, trivial, by simp, ?_⟩
      simp [Occurrence.next, told.uncrashed, told.uncut, ended, checking]
    | false =>
      obtain ⟨i, fiber, there, waiting⟩ := waiting_of_idle stage.1.idle ended
      refine ⟨.check i (.ok true), o.setFiber i ⟨fiber.state.check (.ok true), .ended⟩, trivial,
        trivial, by simp, ?_⟩
      simp [Occurrence.next, told.uncrashed, there, nextOf, checking, waiting, told.uncut]
  · rename_i action rest acting
    obtain ⟨before, actions, at_⟩ := stage
    cases target : isTargetAction action with
    | false =>
      have isWait : action.step.type = .wait := by simpa [isTargetAction] using target
      refine ⟨.wait 0 0 none, (o.endWait action 0 0 none).proceed 0 rest, trivial, trivial, by simp, ?_⟩
      simp [Occurrence.next, told.uncrashed, acting, told.uncut, isWait]
    | true =>
      have noWait : action.step.type ≠ .wait := by simpa [isTargetAction] using target
      cases silent : o.fibers.any (·.turn.writing.isSome) with
      | true =>
        obtain ⟨fiber, member, writes⟩ := any_eq_true.mp silent
        obtain ⟨i, there⟩ := getElem?_of_mem member
        obtain ⟨run, writes⟩ := Option.isSome_iff_exists.mp writes
        exact goesOn_of_writing told there writes
      | false =>
        by_cases idle : ∀ fiber ∈ o.fibers, fiber.turn.isIdle = true
        · cases ended : o.fibers.all (·.turn.isEnded) with
          | true =>
            refine ⟨.advance 0, o.proceed 0 rest, trivial, trivial, by simp, ?_⟩
            simp [Occurrence.next, told.uncrashed, told.uncut, ended, acting, noWait]
          | false =>
            obtain ⟨i, fiber, there, waiting⟩ := waiting_of_idle idle ended
            have none : o.fibers.filter (·.turn.isRunning) = [] := by
              rw [filter_eq_nil_iff]
              intro other member
              have idle := idle other member
              cases turn : other.turn <;> simp_all [Turn.isIdle, Turn.isRunning]
            refine ⟨.begin i 0 false,
              o.setFiber i (beginAction o.id action o.sequenceFailure false 0 fiber.state), trivial,
              trivial, by simp, ?_⟩
            simp [Occurrence.next, told.uncrashed, there, nextOf, acting, waiting,
              told.uncut, noWait, none, targetExecutionConcurrency]
        · push Not at idle
          obtain ⟨fiber, member, under⟩ := idle
          obtain ⟨i, there⟩ := getElem?_of_mem member
          exact goesOn_of_under told there (by simpa using under) silent
  · rename_i run completing
    refine ⟨.complete true, { o with stage := .completed, result := some run }, trivial, trivial, by simp, ?_⟩
    simp [Occurrence.next, told.uncrashed, told.uncut, completing]
  · obtain ⟨-, run, stored, -⟩ := stage
    simp [unfinished] at stored
  · exact stage.elim

end

/-! ## Its result is recorded -/

/-- A failure to store the result. -/
def OccurrenceEvent.isOutage : OccurrenceEvent → Bool
  | .complete false => true
  | _ => false

theorem proceed_id (o : Occurrence) (now : Nat) (rest : List RelayScheduleAction) : (o.proceed now rest).id = o.id := by
  cases rest with
  | cons action rest => rfl
  | nil =>
    cases parsed : scheduleRunSchema.parse (o.run now (o.status now)) <;>
      simp [proceed, parsed]

theorem nextOf_id (step : o.nextOf i fiber event = some after) : after.id = o.id := by
  unfold nextOf at step
  split at step
  all_goals try unfold Occurrence.taken at step
  all_goals try unfold Occurrence.written at step
  all_goals repeat' split at step
  all_goals first
    | (obtain rfl := Option.some.inj step; rfl)
    | exact nomatch step

theorem next_id (step : o.next event = some after) : after.id = o.id := by
  unfold Occurrence.next at step
  split at step
  · cases step
  cases event with
  | check i | begin i | take i | write i | send i | settle i | append i =>
    obtain ⟨fiber, there, step⟩ := Option.bind_eq_some_iff.mp step
    exact nextOf_id step
  | wait startedAt now failure =>
    dsimp only at step
    split at step
    · split at step
      · cases step
      · cases step
        exact proceed_id ..
    · cases step
  | advance now =>
    dsimp only at step
    split at step
    · cases step
    split at step
    · cases step
      exact proceed_id ..
    · split at step
      · cases step
      · cases step
        exact proceed_id ..
    · cases step
  | complete stored =>
    dsimp only at step
    split at step
    · split at step
      · cases step
      · split at step <;> obtain rfl := Option.some.inj step <;> rfl
    · cases step
  | reject =>
    dsimp only at step
    split at step
    · cases step
      rfl
    · cases step
  | abort =>
    cases step
    rfl
  | crash =>
    cases step
    rfl

/-- A failure to store the result changes nothing. -/
theorem next_outage (outage : event.isOutage = true) (step : o.next event = some after) : after = o := by
  unfold OccurrenceEvent.isOutage at outage
  split at outage
  · simp only [Occurrence.next] at step
    split at step
    · cases step
    · split at step
      · split at step
        · cases step
        · simpa using step.symm
      · cases step
  · cases outage

/-- Along a run, an occurrence is as its story tells, and has done as much as there was. -/
theorem told_of_run {id : OccurrenceId} (accepted : id.schedule.Accepted) {startedAt : Nat}
    {active : List String} {events : List OccurrenceEvent} {told : Occurrence × List Happening}
    (run : ((toldSystem id startedAt active).restrict RunsWell).Run (.start id startedAt active, []) events told) :
    told.1.id = id ∧ Told (targetStates startedAt active id.schedule.targets) told.1 told.2 ∧
      (events.filter (!·.isOutage)).length + told.1.work ≤ (start id startedAt active).work := by
  induction run with
  | nil => exact ⟨rfl, .start id startedAt active, by simp⟩
  | @snoc middle after events event run step ih =>
    obtain ⟨same, kept, enough⟩ := ih
    obtain ⟨well, step⟩ := step
    obtain ⟨next, made, rfl⟩ := Option.map_eq_some_iff.mp step
    refine ⟨(next_id made).trans same, kept.next (same ▸ accepted) well made, ?_⟩
    rw [filter_append, length_append]
    cases outage : event.isOutage with
    | true =>
      obtain rfl := next_outage outage made
      simp [outage]
      omega
    | false =>
      have less := work_next kept well.1 (by rintro rfl; exact nomatch outage) made
      simp [outage]
      omega

/-- An occurrence that is let run and whose texts fit throws nothing and is never cut off; it always
    has a next step until its result is recorded, and makes only so many steps apart from what its
    storage fails; and its result tells what happened. -/
theorem occurrence_records_result {id : OccurrenceId} (accepted : id.schedule.Accepted)
    {startedAt : Nat} {active : List String} {events : List OccurrenceEvent} {o : Occurrence}
    {story : List Happening}
    (run : ((toldSystem id startedAt active).restrict RunsWell).Run (.start id startedAt active, [])
      events (o, story)) :
    (o.fibers.any (·.turn.isThrown) = false ∧ o.stage ≠ .rejected ∧ o.cut = false) ∧
      (o.result = none → o.GoesOn) ∧
      (events.filter (!·.isOutage)).length ≤ (start id startedAt active).work ∧
      ∀ recorded ∈ o.result, recorded.accepted = true ∧
        Tells id (targetStates startedAt active id.schedule.targets) story recorded := by
  obtain ⟨rfl, told, enough⟩ := told_of_run accepted run
  refine ⟨⟨told.not_thrown, ?_, told.uncut⟩, told.goesOn, by omega, ?_⟩
  · intro rejected
    have stage := told.stage
    unfold StageTold at stage
    rw [rejected] at stage
    exact stage
  · intro recorded member
    have completed : o.stage = .completed := by
      by_contra apart
      exact nomatch (told.result apart).symm.trans member
    have stage := told.stage
    unfold StageTold at stage
    rw [completed] at stage
    obtain ⟨-, run, stored, fits, tells⟩ := stage
    cases stored.symm.trans member
    exact ⟨fits, tells⟩

/-- A schedule that restarts an App each night. -/
def restartSchedule : RelayScheduleProjection where
  id := "restarts"
  revision := 1
  cron := "0 4 * * *"
  targets := [⟨"shop", .app, "Shop", "relay"⟩]
  actions := [⟨"restart", .power .restart false none⟩]

def restartOccurrence : OccurrenceId := ⟨restartSchedule, 5, "relay"⟩

theorem restartSchedule_accepted : restartOccurrence.schedule.Accepted := by
  refine ⟨by decide, by decide, by decide, ?_⟩
  intro action member mode executions keys step
  obtain rfl := mem_singleton.mp member
  cases step

/-- The restart fails with a message. -/
def restartEvents (message : String) : List OccurrenceEvent :=
  [.check 0 (.ok true), .advance 6, .begin 0 7 false, .settle 0 (.failed (some message)), .append 0 8, .advance 9]

theorem occurrence_records_result_restart : ∃ o story recorded,
    Occurrence.result o = some recorded ∧ recorded.status = .failed ∧
      Tells restartOccurrence (targetStates 5 [] restartOccurrence.schedule.targets) story recorded := by
  have short : FitsText "No space left on device" := ⟨by decide, by decide⟩
  have well : ∀ e ∈ restartEvents "No space left on device" ++ [.complete false, .complete true],
      ∀ s, RunsWell s e := by
    intro e member s
    simp only [restartEvents, cons_append, nil_append, mem_cons, not_mem_nil,
      or_false] at member
    rcases member with rfl | rfl | rfl | rfl | rfl | rfl | rfl | rfl <;>
      first | exact ⟨trivial, trivial⟩ | exact ⟨trivial, short⟩
  obtain ⟨o, story, recorded, ran, stored, failed⟩ : ∃ o story recorded,
      runAll nextTold (.start restartOccurrence 5 [], [])
        (restartEvents "No space left on device" ++ [.complete false, .complete true]) =
          some (o, story) ∧ o.result = some recorded ∧ recorded.status = .failed :=
    ⟨_, _, _, rfl, rfl, by decide⟩
  have run : (toldSystem restartOccurrence 5 []).Run (.start restartOccurrence 5 [], []) _ (o, story) :=
    System.run_of_runAll ran
  have records := (occurrence_records_result restartSchedule_accepted
    (run.restrict_of_forall well)).2.2.2 recorded stored
  exact ⟨o, story, recorded, stored, failed, records.2⟩

/-- Where it threw and nothing is under way, nothing more comes of an occurrence. -/
theorem not_goesOn_of_rejected (rejected : o.stage = .rejected)
    (ended : ∀ fiber ∈ o.fibers, fiber.turn = .ended) : ¬ o.GoesOn := by
  rintro ⟨event, after, run, -, -, step⟩
  unfold Occurrence.next at step
  split at step
  · cases step
  cases event with
  | check i | begin i | take i | write i | send i | settle i | append i =>
    obtain ⟨fiber, there, step⟩ := Option.bind_eq_some_iff.mp step
    have turn := ended fiber (mem_of_getElem? there)
    simp [nextOf, Occurrence.taken, Occurrence.written, rejected, turn] at step
  | wait | advance | complete => simp [rejected] at step
  | reject =>
    dsimp only at step
    split at step
    · rename_i thrown
      obtain ⟨fiber, member, isThrown⟩ := any_eq_true.mp thrown
      simp [ended fiber member, Turn.isThrown] at isThrown
    · cases step
  | abort | crash => exact run

/-- A message that doesn't fit. -/
def longMessage : String := String.ofList (replicate 2001 'x')

theorem utf16Length_replicate (n : Nat) : utf16Length (String.ofList (replicate n 'x')) = n := by
  simp [utf16Length]

theorem not_fits_longMessage : ¬ utf16Length longMessage ≤ maxErrorLength := by
  have length : utf16Length longMessage = 2001 := utf16Length_replicate 2001
  rw [length]
  decide

theorem endAction_failed (id : OccurrenceId) (action : RelayScheduleAction) (startedAt now : Nat)
    (message : Option String) (state : TargetExecutionState) :
    (endAction id action startedAt now (.failed message) state).state.attempts =
      state.attempts ++ [endedAttempt id action state.target startedAt now (.failed message)] := by
  simp [endAction, TargetExecutionState.push, noteFailure_rest]

/-- A restart that fails with it leaves an occurrence that threw as it put its result together, with
    nothing recorded and nothing more that can be. -/
theorem long_message_rejected : ∃ o story,
    (toldSystem restartOccurrence 5 []).Run (.start restartOccurrence 5 [], [])
      (restartEvents longMessage) (o, story) ∧
      o.stage = .rejected ∧ o.result = none ∧ ¬ o.GoesOn := by
  obtain ⟨message, long, tooLong⟩ :
      ∃ message, message = longMessage ∧ ¬ utf16Length message ≤ maxErrorLength :=
    ⟨longMessage, rfl, not_fits_longMessage⟩
  obtain ⟨o, story, ran, uncrashed, uncut, acting, fiber, only, ended, entry, listed, error, unstored⟩ :
      ∃ o story, runAll nextTold (.start restartOccurrence 5 [], [])
        [.check 0 (.ok true), .advance 6, .begin 0 7 false, .settle 0 (.failed (some message)),
          .append 0 8] = some (o, story) ∧ o.crashed = false ∧ o.cut = false ∧
      o.stage = .acting ⟨"restart", .power .restart false none⟩ [] ∧
      ∃ fiber, o.fibers = [fiber] ∧ fiber.turn = .ended ∧
        ∃ entry, fiber.state.attempts = [entry] ∧ entry.error = some message ∧ o.result = none :=
    ⟨_, _, rfl, rfl, rfl, rfl, _, rfl, rfl, _, endAction_failed .., rfl, rfl⟩
  have refused : scheduleRunSchema.parse (o.run 9 (o.status 9)) = none := by
    unfold scheduleRunSchema.parse
    rw [if_neg]
    intro accepted
    have targets := ((ScheduleRun.accepted_iff _).mp accepted).2.2
    have target := targets (targetRun o.id 9 fiber.state) (by simp [Occurrence.run, only])
    simp only [ScheduleTargetRun.accepted, targetRun, listed, Bool.and_eq_true, all_eq_true]
      at target
    have first := target.1.1.2 entry (by simp)
    simp only [ScheduleActionAttempt.accepted, error, Bool.and_eq_true, isErrorText_some] at first
    exact tooLong first.1.1
  have step : nextTold (o, story) (.advance 9) =
      some ({ o with stage := .rejected }, story) := by
    simp [nextTold, Occurrence.next, uncrashed, uncut, acting, only, ended,
      proceed, refused, happening, Turn.isEnded, ScheduleStep.type]
  have run := System.Run.snoc (S := toldSystem restartOccurrence 5 []) (System.run_of_runAll ran) step
  rw [← long]
  exact ⟨_, story, run, rfl, unstored, not_goesOn_of_rejected rfl (by simp [only, ended])⟩

end Kiln.Relay
