import Kiln.Relay.ScheduleTexts

/-!
# An occurrence is as its story tells

Where an occurrence is let run and its texts fit, each of its steps keeps it as what has happened so
far tells: every target's attempts and failures, the actions behind it, and that nothing was thrown.
-/

namespace Kiln.Relay
open Kiln.Lib Kiln.Contracts Kiln.Operations Occurrence TargetFiber List

/-- It isn't stopped. -/
def IsLetRun : OccurrenceEvent → Prop
  | .abort | .crash => False
  | _ => True

/-- An occurrence that is let run, whose texts fit. -/
def RunsWell (_ : Occurrence × List Happening) (event : OccurrenceEvent) : Prop :=
  IsLetRun event ∧ TextsFit event

namespace Turn

/-- The action that is at work on a target. -/
def action : Turn → Option RelayScheduleAction
  | .marking action _ _ _ | .executing action _ _ | .executed action _ _ _ => some action
  | _ => none

/-- A target's attempt of the action is there, or none is to come. -/
def hasActed : Turn → Bool
  | .reporting _ | .ended => true
  | _ => false

/-- Nothing is under way on a target. -/
def isIdle : Turn → Bool
  | .waiting | .ended => true
  | _ => false

end Turn

/-- A target is as its story tells. -/
structure TargetTold (i : Nat) (story : List Happening) (fiber : TargetFiber) : Prop where
  attempts : fiber.state.attempts.map (fun entry => (entry.actionId, attemptOutcome entry)) =
    (deedsOf i story).map fun deed => (deed.1.id, deed.2.outcome fiber.state.target)
  accepted : ∀ entry ∈ fiber.state.attempts, entry.accepted = true
  flight : ∀ entry ∈ fiber.state.inFlight, entry.accepted = true ∧ fiber.turn.action.isSome = true
  error : isErrorText fiber.state.error = true
  fails : (isSet fiber.state.failure || fiber.state.missing) = (!(checksOf i story).all isFound ||
      (deedsOf i story).any fun deed => (deed.2.outcome fiber.state.target).isFailure)
  fits : ∀ action startedAt sent result, fiber.turn = .executed action startedAt sent result →
    result.Fits ∧ fiber.state.inFlight = none
  sane : fiber.turn ≠ .thrown
  held : fiber.state.activeKey = none → deedsOf i story = [] ∧ fiber.turn.isIdle = true

/-- Where an occurrence is between two actions, `before` being behind it. -/
structure Ready (fibers : List TargetFiber) (story : List Happening)
    (before : List RelayScheduleAction) : Prop where
  waits : (waitsOf story).map (·.1) = before.filter (!isTargetAction ·)
  deeds : ∀ (i : Nat) fiber, fibers[i]? = some fiber → fiber.state.activeKey ≠ none →
    (deedsOf i story).map (·.1) = before.filter isTargetAction
  idle : ∀ fiber ∈ fibers, fiber.turn.isIdle = true

/-- Where an occurrence is while it is at an action. -/
structure AtAction (fibers : List TargetFiber) (story : List Happening)
    (before : List RelayScheduleAction) (action : RelayScheduleAction) : Prop where
  waits : (waitsOf story).map (·.1) = before.filter (!isTargetAction ·)
  deeds : ∀ (i : Nat) fiber, fibers[i]? = some fiber → fiber.state.activeKey ≠ none → (deedsOf i story).map (·.1) =
      before.filter isTargetAction ++ if fiber.turn.hasActed then [action] else []
  own : ∀ fiber ∈ fibers, ∀ at_ ∈ fiber.turn.action, at_ = action
  waiting : isTargetAction action = false → ∀ fiber ∈ fibers, fiber.turn = .waiting

/-- Where an occurrence is. -/
def StageTold (initial : List TargetExecutionState) (o : Occurrence) (story : List Happening) :
    Prop :=
  match o.stage with
  | .checking => Ready o.fibers story [] ∧ ∀ i fiber, o.fibers[i]? = some fiber →
      fiber.turn = .waiting → fiber.state.failure = none ∧ fiber.state.missing = false ∧ checksOf i story = []
  | .acting action rest => ∃ before, o.id.schedule.actions = before ++ action :: rest ∧
      AtAction o.fibers story before action
  | .completing run => (∀ fiber ∈ o.fibers, fiber.turn.isIdle = true) ∧ run.accepted = true ∧
      Tells o.id initial story run
  | .completed => (∀ fiber ∈ o.fibers, fiber.turn.isIdle = true) ∧
      ∃ run, o.result = some run ∧ run.accepted = true ∧ Tells o.id initial story run
  | .rejected => False

/-- An occurrence is as its story tells, wherever it is. -/
structure Follows (initial : List TargetExecutionState) (o : Occurrence) (story : List Happening) :
    Prop where
  targets : initial.map (·.target) = o.id.schedule.targets
  same : o.fibers.map (fun fiber => (fiber.state.target, fiber.state.activeKey)) =
    initial.map fun state => (state.target, state.activeKey)
  fibers : ∀ i fiber, o.fibers[i]? = some fiber → TargetTold i story fiber
  sequence : o.sequenceAttempts.map (fun entry => (entry.actionId, attemptOutcome entry)) =
    (waitsOf story).map fun wait => (wait.1.id, wait.2)
  sequenceAccepted : ∀ entry ∈ o.sequenceAttempts, entry.accepted = true
  uninterrupted : ∀ wait ∈ waitsOf story, wait.2.status ≠ .interrupted
  uncut : o.cut = false
  uncrashed : o.crashed = false

/-- An occurrence is as its story tells. -/
structure Told (initial : List TargetExecutionState) (o : Occurrence) (story : List Happening) :
    Prop extends Follows initial o story where
  result : o.stage ≠ .completed → o.result = none
  stage : StageTold initial o story

/-! ## One target -/

section

variable {i : Nat} {story more : List Happening} {fiber fiber' : TargetFiber}
  {action : RelayScheduleAction} {deed : Deed}

/-- What happens to others doesn't matter. -/
theorem TargetTold.elsewhere (told : TargetTold i story fiber) (deeds : deedsOf i more = [])
    (checks : checksOf i more = []) : TargetTold i (story ++ more) fiber := by
  have deeds' : deedsOf i (story ++ more) = deedsOf i story := by simp [deeds]
  have checks' : checksOf i (story ++ more) = checksOf i story := by simp [checks]
  exact { told with
    attempts := deeds' ▸ told.attempts
    fails := by rw [deeds', checks']; exact told.fails
    held := deeds' ▸ told.held }

theorem TargetTold.moved (told : TargetTold i story fiber)
    (flight : ∀ entry ∈ fiber'.state.inFlight, entry.accepted = true ∧ fiber'.turn.action.isSome = true)
    (state : ∃ flight, fiber'.state = { fiber.state with inFlight := flight })
    (fits : ∀ action startedAt sent result, fiber'.turn = .executed action startedAt sent result →
      result.Fits ∧ fiber'.state.inFlight = none)
    (sane : fiber'.turn ≠ .thrown) (held : fiber.state.activeKey = none → fiber'.turn.isIdle = true) :
    TargetTold i story fiber' := by
  obtain ⟨inFlight, state⟩ := state
  refine ⟨?_, ?_, flight, ?_, ?_, fits, sane, ?_⟩
  · simpa [state] using told.attempts
  · simpa [state] using told.accepted
  · simpa [state] using told.error
  · simpa [state] using told.fails
  · intro keyless
    have keyless : fiber.state.activeKey = none := by simpa [state] using keyless
    exact ⟨(told.held keyless).1, held keyless⟩

theorem TargetTold.attempted (told : TargetTold i story fiber) (free : fiber.state.activeKey ≠ none)
    (added : Attempted action (deed.outcome fiber.state.target) fiber.state fiber'.state)
    (landed : fiber'.state.inFlight = none) (turn : fiber'.turn.hasActed = true) :
    TargetTold i (story ++ [.acted i action deed]) fiber' := by
  obtain ⟨entry, attempts, same, outcome, accepted⟩ := added.attempts
  refine ⟨?_, ?_, ?_, added.error told.error, ?_, ?_, ?_, ?_⟩
  · rw [attempts, map_append, told.attempts, added.target]
    simp [same, outcome]
  · intro other member
    rw [attempts] at member
    rcases mem_append.mp member with before | now
    · exact told.accepted other before
    · obtain rfl := mem_singleton.mp now
      exact accepted
  · simp [landed]
  · have fails := told.fails
    rw [added.failure, added.missing, added.target]
    simp only [checksOf_append, checksOf_acted, append_nil, deedsOf_append, deedsOf_acted,
      if_pos, any_append, any_cons, any_nil, Bool.or_false]
    rw [Bool.or_right_comm, fails, Bool.or_assoc]
  · intro _ _ _ _ executed
    simp [executed, Turn.hasActed] at turn
  · intro thrown
    simp [thrown, Turn.hasActed] at turn
  · intro keyless
    exact absurd (added.activeKey ▸ keyless) free

end

/-! ## The whole occurrence -/

namespace Told

variable {initial : List TargetExecutionState} {o : Occurrence} {story more : List Happening}
  {i : Nat} {fiber fiber' : TargetFiber} {action : RelayScheduleAction}
  {before rest : List RelayScheduleAction}

/-- One target moves on, and what happens is about it. -/
theorem setFiber (told : Told initial o story) (there : o.fibers[i]? = some fiber)
    (same : fiber'.state.target = fiber.state.target ∧ fiber'.state.activeKey = fiber.state.activeKey)
    (mine : TargetTold i (story ++ more) fiber')
    (others : ∀ j, j ≠ i → deedsOf j more = [] ∧ checksOf j more = [])
    (waits : waitsOf more = [])
    (stage : StageTold initial (o.setFiber i fiber') (story ++ more)) :
    Told initial (o.setFiber i fiber') (story ++ more) := by
  refine ⟨⟨told.targets, ?_, ?_, ?_, told.sequenceAccepted, ?_, told.uncut, told.uncrashed⟩, told.result, stage⟩
  · rw [← told.same]
    simp only [Occurrence.setFiber, List.map_set]
    apply List.ext_getElem?
    intro k
    rw [List.getElem?_set]
    split
    · rename_i here
      subst here
      have placed := (List.getElem?_eq_some_iff.mp there).1
      have read := (List.getElem?_eq_some_iff.mp there).2
      simp [placed, same.1, same.2, read]
    · rfl
  · intro k other found
    rcases get_setFiber found with ⟨rfl, rfl⟩ | ⟨apart, found⟩
    · exact mine
    · exact (told.fibers k other found).elsewhere (others k apart).1 (others k apart).2
  · simpa [Occurrence.setFiber, waits] using told.sequence
  · simpa [waits] using told.uninterrupted

/-- A target with work under way has it of the action the occurrence is at. -/
theorem busy (told : Told initial o story) (there : o.fibers[i]? = some fiber) (under : fiber.turn.isIdle = false) :
    ∃ action rest before, o.stage = .acting action rest ∧ isTargetAction action = true ∧
      o.id.schedule.actions = before ++ action :: rest ∧ AtAction o.fibers story before action := by
  have member := mem_of_getElem? there
  have stage := told.stage
  unfold StageTold at stage
  split at stage
  · simp [stage.1.idle fiber member] at under
  · rename_i action rest acting
    obtain ⟨before, actions, at_⟩ := stage
    refine ⟨action, rest, before, acting, ?_, actions, at_⟩
    by_contra wait
    have waiting := at_.waiting (by simpa using wait) fiber member
    simp [waiting, Turn.isIdle] at under
  · simp [stage.1 fiber member] at under
  · simp [stage.1 fiber member] at under
  · exact stage.elim

end Told

variable {story : List Happening} {fiber : TargetFiber} {i : Nat}

theorem AtAction.setFiber {o : Occurrence} {more : List Happening}
    {fiber' : TargetFiber} {action : RelayScheduleAction} {before : List RelayScheduleAction}
    (at_ : AtAction o.fibers story before action) (there : o.fibers[i]? = some fiber)
    (same : fiber'.state.activeKey = fiber.state.activeKey)
    (target : isTargetAction action = true) (own : ∀ a ∈ fiber'.turn.action, a = action)
    (others : ∀ j, j ≠ i → deedsOf j more = []) (waits : waitsOf more = [])
    (acts : fiber.state.activeKey ≠ none → (if fiber'.turn.hasActed then [action] else []) =
      (if fiber.turn.hasActed then [action] else []) ++ (deedsOf i more).map (·.1)) :
    AtAction (o.setFiber i fiber').fibers (story ++ more) before action := by
  refine ⟨?_, ?_, ?_, by simp [target]⟩
  · simpa [waits] using at_.waits
  · intro k other found free
    rcases get_setFiber found with ⟨rfl, rfl⟩ | ⟨apart, found⟩
    · have free : fiber.state.activeKey ≠ none := same ▸ free
      rw [deedsOf_append, map_append, at_.deeds k fiber there free, acts free, append_assoc]
    · rw [deedsOf_append, others k apart, append_nil]
      exact at_.deeds k other found free
  · intro other member
    rcases mem_or_eq_of_mem_set member with before | rfl
    · exact at_.own other before
    · exact own

namespace Turn

theorem action_of_idle {turn : Turn} (idle : turn.isIdle = true) : turn.action = none := by
  cases turn <;> first | rfl | exact nomatch idle

theorem hasActed_of_action {turn : Turn} (under : turn.action.isSome = true) : turn.hasActed = false := by
  cases turn <;> first | rfl | exact nomatch under

end Turn

theorem TargetTold.landed (told : TargetTold i story fiber) (idle : fiber.turn.action = none) :
    fiber.state.inFlight = none := by
  cases flight : fiber.state.inFlight with
  | none => rfl
  | some entry =>
    have under := (told.flight entry flight).2
    simp [idle] at under

theorem TargetTold.free (told : TargetTold i story fiber) (under : fiber.turn.isIdle = false) :
    fiber.state.activeKey ≠ none := by
  intro keyless
  simp [(told.held keyless).2] at under

theorem TargetTold.count (told : TargetTold i story fiber) :
    fiber.state.attempts.length = (deedsOf i story).length := by
  have lengths := congrArg length told.attempts
  simpa using lengths

namespace Told

variable {initial : List TargetExecutionState} {o : Occurrence} {story : List Happening}
  {i : Nat} {fiber : TargetFiber} {action : RelayScheduleAction}
  {before rest : List RelayScheduleAction}

theorem run_accepted (told : Follows initial o story) (accepted : o.id.schedule.Accepted)
    (few : ∀ (i : Nat) fiber, o.fibers[i]? = some fiber →
      fiber.state.attempts.length + fiber.state.inFlight.toList.length ≤ 32)
    (fewWaits : (waitsOf story).length ≤ 32) (now : Nat) (status : ScheduleRunStatus) :
    (o.run now status).accepted = true := by
  have waits : o.sequenceAttempts.length = (waitsOf story).length := by
    simpa using congrArg length told.sequence
  have count : o.fibers.length ≤ 2000 := by
    have same : o.fibers.length = initial.length := by simpa using congrArg length told.same
    have targets : initial.length = o.id.schedule.targets.length := by
      simpa using congrArg length told.targets
    have most := accepted.fewTargets
    omega
  refine (ScheduleRun.accepted_iff _).mpr ⟨⟨?_, told.sequenceAccepted⟩, ?_, ?_⟩
  · simpa [Occurrence.run, waits] using fewWaits
  · simpa [Occurrence.run] using count
  intro target member
  obtain ⟨fiber, listed, rfl⟩ := mem_map.mp member
  obtain ⟨i, there⟩ := getElem?_of_mem listed
  have mine := told.fibers i fiber there
  have each : ∀ entry ∈ fiber.state.attempts ++ fiber.state.inFlight.toList, entry.accepted = true := by
    intro entry member
    rcases mem_append.mp member with own | flight
    · exact mine.accepted entry own
    · exact (mine.flight entry (Option.mem_toList.mp flight)).1
  have short := few i fiber there
  have all : (fiber.state.attempts ++ fiber.state.inFlight.toList).all (·.accepted) = true :=
    all_eq_true.mpr each
  simp only [ScheduleTargetRun.accepted, targetRun, all, mine.error, length_append,
    decide_eq_true short, ScheduleStableId.accepted_eq, Bool.and_self]

/-- There are as many attempts of a target as actions so far. -/
theorem few_atAction (told : Told initial o story) (accepted : o.id.schedule.Accepted)
    (at_ : AtAction o.fibers story before action) (actions : o.id.schedule.actions = before ++ action :: rest)
    (there : o.fibers[i]? = some fiber) :
    fiber.state.attempts.length + fiber.state.inFlight.toList.length ≤ 32 := by
  have mine := told.fibers i fiber there
  have most := accepted.fewActions
  rw [actions, length_append, length_cons] at most
  have short := length_filter_le isTargetAction before
  rw [mine.count]
  by_cases free : fiber.state.activeKey = none
  · obtain ⟨none, idle⟩ := mine.held free
    have landed := mine.landed (Turn.action_of_idle idle)
    simp [none, landed]
  have deeds := congrArg length (at_.deeds i fiber there free)
  rw [length_map, length_append] at deeds
  cases flight : fiber.state.inFlight with
  | none =>
    split at deeds <;> simp at deeds ⊢ <;> omega
  | some entry =>
    have acted := Turn.hasActed_of_action (mine.flight entry flight).2
    simp [acted] at deeds
    simp
    omega

theorem fewWaits_atAction (accepted : o.id.schedule.Accepted) (at_ : AtAction o.fibers story before action)
    (actions : o.id.schedule.actions = before ++ action :: rest) : (waitsOf story).length ≤ 32 := by
  have waits := congrArg length at_.waits
  have most := accepted.fewActions
  rw [actions, length_append, length_cons] at most
  have short := length_filter_le (!isTargetAction ·) before
  rw [length_map] at waits
  omega

/-! ### What a target does -/

theorem stageTold_acting (stage : o.stage = .acting action rest)
    (actions : o.id.schedule.actions = before ++ action :: rest)
    (at_ : AtAction o.fibers story before action) : StageTold initial o story := by
  unfold StageTold
  rw [stage]
  exact ⟨before, actions, at_⟩

variable {fiber' : TargetFiber}

theorem movesAt (told : Told initial o story)
    (there : o.fibers[i]? = some fiber) (stage : o.stage = .acting action rest)
    (target : isTargetAction action = true)
    (actions : o.id.schedule.actions = before ++ action :: rest)
    (at_ : AtAction o.fibers story before action)
    (state : ∃ flight, fiber'.state = { fiber.state with inFlight := flight })
    (flight : ∀ entry ∈ fiber'.state.inFlight, entry.accepted = true ∧ fiber'.turn.action.isSome = true)
    (fits : ∀ action startedAt sent result, fiber'.turn = .executed action startedAt sent result →
      result.Fits ∧ fiber'.state.inFlight = none)
    (sane : fiber'.turn ≠ .thrown) (own : ∀ a ∈ fiber'.turn.action, a = action)
    (acts : fiber.state.activeKey ≠ none → fiber'.turn.hasActed = fiber.turn.hasActed)
    (held : fiber.state.activeKey = none → fiber'.turn.isIdle = true) :
    Told initial (o.setFiber i fiber') story := by
  have moved := (told.fibers i fiber there).moved flight state fits sane held
  obtain ⟨inFlight, state⟩ := state
  have after : AtAction (o.setFiber i fiber').fibers (story ++ []) before action :=
    at_.setFiber there (by simp [state]) target own (by simp) rfl (fun free => by simp [acts free])
  have stage' : StageTold initial (o.setFiber i fiber') (story ++ []) :=
    stageTold_acting stage actions after
  have moved' := told.setFiber there (by simp [state]) (by simpa using moved) (by simp) rfl stage'
  simpa using moved'

/-- A target with work under way moves on. -/
theorem moves (told : Told initial o story) (there : o.fibers[i]? = some fiber) (under : fiber.turn.isIdle = false)
    (state : ∃ flight, fiber'.state = { fiber.state with inFlight := flight })
    (flight : ∀ entry ∈ fiber'.state.inFlight, entry.accepted = true ∧ fiber'.turn.action.isSome = true)
    (fits : ∀ action startedAt sent result, fiber'.turn = .executed action startedAt sent result →
      result.Fits ∧ fiber'.state.inFlight = none)
    (sane : fiber'.turn ≠ .thrown) (own : ∀ a ∈ fiber'.turn.action, a ∈ fiber.turn.action)
    (acts : fiber'.turn.hasActed = fiber.turn.hasActed) :
    Told initial (o.setFiber i fiber') story := by
  obtain ⟨action, rest, before, stage, target, actions, at_⟩ := told.busy there under
  have free := (told.fibers i fiber there).free under
  exact told.movesAt there stage target actions at_ state flight fits sane
    (fun a member => at_.own fiber (mem_of_getElem? there) a (own a member))
    (fun _ => acts) (fun keyless => absurd keyless free)

theorem attempts {deed : Deed} (told : Told initial o story) (there : o.fibers[i]? = some fiber)
    (free : fiber.state.activeKey ≠ none) (stage : o.stage = .acting action rest)
    (target : isTargetAction action = true)
    (actions : o.id.schedule.actions = before ++ action :: rest)
    (at_ : AtAction o.fibers story before action) (before' : fiber.turn.hasActed = false)
    (added : Attempted action (deed.outcome fiber.state.target) fiber.state fiber'.state)
    (landed : fiber'.state.inFlight = none) (turn : fiber'.turn.hasActed = true) :
    Told initial (o.setFiber i fiber') (story ++ [.acted i action deed]) := by
  have mine := (told.fibers i fiber there).attempted free added landed turn
  have others : ∀ j, j ≠ i → deedsOf j [.acted i action deed] = [] ∧ checksOf j [.acted i action deed] = [] := by
    intro j apart
    simp [Ne.symm apart]
  have own : ∀ a ∈ fiber'.turn.action, a = action := by
    intro a member
    have acted := Turn.hasActed_of_action (Option.isSome_of_mem member)
    simp [acted] at turn
  have after := at_.setFiber there added.activeKey target own (fun j apart => (others j apart).1)
    (by simp) (by simp [before', turn])
  exact told.setFiber there ⟨added.target, added.activeKey⟩ mine others (by simp) (stageTold_acting stage actions after)

theorem check_rest (state : TargetExecutionState) (found : Except (Option String) Bool) :
    (state.check found).attempts = state.attempts ∧ (state.check found).inFlight = state.inFlight ∧
      (state.check found).target = state.target ∧
      (state.check found).activeKey = state.activeKey := by
  rcases found with message | _ | _ <;> exact ⟨rfl, rfl, rfl, rfl⟩

variable {after : Occurrence}

theorem check {found : Except (Option String) Bool} (told : Told initial o story)
    (there : o.fibers[i]? = some fiber) (fits : TextsFit (.check i found))
    (step : o.nextOf i fiber (.check i found) = some after) :
    Told initial after (story ++ [.checked i found]) := by
  simp only [nextOf] at step
  split at step
  · rename_i checking turn
    split at step
    · cases step
    cases step
    have stage := told.stage
    unfold StageTold at stage
    rw [checking] at stage
    obtain ⟨ready, unchecked⟩ := stage
    obtain ⟨unset, present, unread⟩ := unchecked i fiber there turn
    have mine := told.fibers i fiber there
    have said : ∀ message, found = .error message → FitsText (errorMessage message) := by
      rintro message rfl
      exact fits
    obtain ⟨fails, short⟩ := check_fits said unset present mine.error
    obtain ⟨attempts, inFlight, target, activeKey⟩ := check_rest fiber.state found
    have landed : fiber.state.inFlight = none := mine.landed (by simp [turn, Turn.action])
    have undone : deedsOf i story = [] := by
      by_cases free : fiber.state.activeKey = none
      · exact (mine.held free).1
      · simpa using ready.deeds i fiber there free
    have checked : TargetTold i (story ++ [.checked i found]) ⟨fiber.state.check found, .ended⟩ := by
      refine ⟨?_, ?_, by simp [inFlight, landed], short, ?_, by simp, by simp, ?_⟩
      · simpa [attempts, target] using mine.attempts
      · simpa [attempts] using mine.accepted
      · simp [fails, unread, undone]
      · simp [undone, Turn.isIdle]
    have others : ∀ j, j ≠ i → deedsOf j [.checked i found] = [] ∧ checksOf j [.checked i found] = [] := by
      intro j apart
      simp [Ne.symm apart]
    refine told.setFiber there ⟨target, activeKey⟩ checked others rfl ?_
    unfold StageTold
    rw [show (o.setFiber i ⟨fiber.state.check found, .ended⟩).stage = .checking from checking]
    refine ⟨⟨by simpa using ready.waits, ?_, ?_⟩, ?_⟩
    · intro k other found' free
      rcases get_setFiber found' with ⟨rfl, rfl⟩ | ⟨apart, found'⟩
      · simp [undone]
      · simpa using ready.deeds k other found' free
    · intro other member
      rcases mem_or_eq_of_mem_set member with before | rfl
      · exact ready.idle other before
      · rfl
    · intro k other found' waiting
      rcases get_setFiber found' with ⟨rfl, rfl⟩ | ⟨apart, found'⟩
      · cases waiting
      · simpa [Ne.symm apart] using unchecked k other found' waiting
  · cases step

/-- An action begins on a target. -/
theorem begin {now : Nat} {paused : Bool} {after : Occurrence} (told : Told initial o story)
    (accepted : o.id.schedule.Accepted) (there : o.fibers[i]? = some fiber)
    (step : o.nextOf i fiber (.begin i now paused) = some after) :
    Told initial after (story ++ (o.happening (.begin i now paused)).toList) := by
  have mine := told.fibers i fiber there
  simp only [nextOf] at step
  split at step
  · rename_i action rest stage turn
    split at step
    · cases step
    rename_i guard
    cases step
    have target : isTargetAction action = true := by
      simp only [Bool.or_eq_true, decide_eq_true_eq, not_or] at guard
      simpa [isTargetAction] using guard.1.2
    have landed : fiber.state.inFlight = none := mine.landed (by simp [turn, Turn.action])
    have stage' := told.stage
    unfold StageTold at stage'
    rw [stage] at stage'
    obtain ⟨before, actions, at_⟩ := stage'
    have member : action ∈ o.id.schedule.actions := by simp [actions]
    unfold beginAction
    split
    · rename_i keyless
      have keyless' : fiber.state.activeKey = none := by simpa using keyless
      have happens : o.happening (.begin i now paused) = none := by
        simp [happening, stage, there, keyless']
      rw [happens, Option.toList_none, append_nil]
      exact told.movesAt there stage target actions at_ ⟨fiber.state.inFlight, rfl⟩
        (by simp [landed]) (by simp) (by simp) (by simp [Turn.action])
        (fun free => absurd keyless' free) (fun _ => rfl)
    rename_i free
    have free : fiber.state.activeKey ≠ none := by simpa using free
    split
    · rename_i status reason kept
      have happens : o.happening (.begin i now paused) = some (.acted i action (.withheld status reason)) := by
        simp [happening, stage, there, free, kept]
      obtain ⟨short, well⟩ := withheld_fits accepted member kept
      have entry := attempt_accepted o.id action fiber.state.target now now status short
      rw [happens]
      exact told.attempts there free stage target actions at_ (by simp [turn, Turn.hasActed])
        (attempted_push well rfl rfl entry) landed rfl
    rename_i kept
    have happens : o.happening (.begin i now paused) = none := by
      simp [happening, stage, there, kept]
    rw [happens, Option.toList_none, append_nil]
    have short : isErrorText (some inFlightText) = true := by decide
    split
    · refine told.movesAt there stage target actions at_ ⟨_, rfl⟩ ?_ (by simp) (by simp)
        (by simp [Turn.action]) (by simp [turn, Turn.hasActed])
        (fun keyless => absurd keyless free)
      intro entry flight
      cases flight
      exact ⟨attempt_accepted o.id action fiber.state.target now now .unknown short, rfl⟩
    · exact told.movesAt there stage target actions at_ ⟨fiber.state.inFlight, rfl⟩
        (by simp [landed]) (by simp) (by simp) (by simp [Turn.action])
        (by simp [turn, Turn.hasActed]) (fun keyless => absurd keyless free)
  · cases step

variable {now : Nat}

theorem take (told : Told initial o story) (accepted : o.id.schedule.Accepted)
    (there : o.fibers[i]? = some fiber) (step : o.nextOf i fiber (.take i now) = some after) :
    Told initial after story := by
  have mine := told.fibers i fiber there
  have fits (under : fiber.turn.isIdle = false) : (o.run now .running).accepted = true := by
    obtain ⟨action, rest, before, -, -, actions, at_⟩ := told.busy there under
    exact run_accepted told.toFollows accepted (fun _ _ found => told.few_atAction accepted at_ actions found)
      (fewWaits_atAction accepted at_ actions) now .running
  have parsed (under : fiber.turn.isIdle = false) :
      scheduleRunSchema.parse (o.run now .running) = some (o.run now .running) :=
    scheduleRunSchema.parse_eq_some.mpr ⟨fits under, rfl⟩
  simp only [nextOf] at step
  split at step
  · cases step
  unfold taken at step
  split at step
  · rename_i action startedAt left turn
    have under : fiber.turn.isIdle = false := by simp [turn, Turn.isIdle]
    rw [parsed under] at step
    cases step
    exact told.moves there under ⟨fiber.state.inFlight, rfl⟩
      (fun entry member => ⟨(mine.flight entry member).1, rfl⟩) (by simp) (by simp)
      (by simp [turn, Turn.action]) (by simp [turn, Turn.hasActed])
  · rename_i turn
    have under : fiber.turn.isIdle = false := by simp [turn, Turn.isIdle]
    have landed : fiber.state.inFlight = none := mine.landed (by simp [turn, Turn.action])
    rw [parsed under] at step
    cases step
    exact told.moves there under ⟨fiber.state.inFlight, rfl⟩ (by simp [landed]) (by simp) (by simp)
      (by simp [Turn.action]) (by simp [turn, Turn.hasActed])
  · cases step

theorem write {now : Nat} {stored : Bool} {after : Occurrence} (told : Told initial o story)
    (there : o.fibers[i]? = some fiber)
    (step : o.nextOf i fiber (.write i now stored) = some after) :
    Told initial after (story ++ (o.happening (.write i now stored)).toList) := by
  have mine := told.fibers i fiber there
  simp only [nextOf] at step
  unfold Occurrence.written at step
  split at step
  · rename_i action startedAt left run turn
    have under : fiber.turn.isIdle = false := by simp [turn, Turn.isIdle]
    have flight : ∀ entry ∈ fiber.state.inFlight, entry.accepted = true ∧ true = true :=
      fun entry member => ⟨(mine.flight entry member).1, rfl⟩
    split at step
    · rename_i landed
      cases step
      have moved : Told initial (o.setFiber i ⟨fiber.state, .executing action startedAt false⟩)
          story :=
        told.moves there under ⟨fiber.state.inFlight, rfl⟩ flight (by simp) (by simp)
          (by simp [turn, Turn.action]) (by simp [turn, Turn.hasActed])
      have happens : o.happening (.write i now stored) = none := by
        simp [happening, landed]
      rw [happens, Option.toList_none, append_nil]
      exact { moved with }
    · rename_i failed
      split at step
      · rename_i again
        cases step
        have happens : o.happening (.write i now stored) = none := by
          cases left with
          | zero => omega
          | succ left => simp [happening, failed, there, turn]
        rw [happens, Option.toList_none, append_nil]
        exact told.moves there under ⟨fiber.state.inFlight, rfl⟩ flight (by simp) (by simp)
          (by simp [turn, Turn.action]) (by simp [turn, Turn.hasActed])
      · rename_i spent
        cases step
        obtain rfl : left = 0 := by omega
        obtain ⟨action', rest, before, stage, target, actions, at_⟩ := told.busy there under
        obtain rfl := at_.own fiber (mem_of_getElem? there) action (by simp [turn, Turn.action])
        have happens : o.happening (.write i now stored) = some (.acted i action .unrecorded) := by
          simp [happening, failed, there, turn]
        have added := @giveUpMark_attempted o.id action fiber.state startedAt now
        have cleared : (giveUpMark o.id action startedAt now fiber.state).inFlight = none := by
          simp [giveUpMark, TargetExecutionState.push, noteFailure_rest]
        rw [happens]
        exact told.attempts there (mine.free under) stage target actions at_
          (by simp [turn, Turn.hasActed]) added cleared rfl
  · rename_i run turn
    have under : fiber.turn.isIdle = false := by simp [turn, Turn.isIdle]
    have landed : fiber.state.inFlight = none := mine.landed (by simp [turn, Turn.action])
    have ended : Told initial (o.setFiber i ⟨fiber.state, .ended⟩) story :=
      told.moves there under ⟨fiber.state.inFlight, rfl⟩ (by simp [landed]) (by simp) (by simp)
        (by simp [Turn.action]) (by simp [turn, Turn.hasActed])
    have happens : o.happening (.write i now stored) = none := by
      cases stored <;> simp [happening, there, turn]
    rw [happens, Option.toList_none, append_nil]
    split at step
    · cases step
      exact { ended with }
    · cases step
      exact ended
  · cases step

theorem send {after : Occurrence} (told : Told initial o story)
    (there : o.fibers[i]? = some fiber) (step : o.nextOf i fiber (.send i) = some after) :
    Told initial after story := by
  simp only [nextOf] at step
  split at step
  · rename_i action startedAt turn
    split at step
    · cases step
      have mine := told.fibers i fiber there
      have moved : Told initial (o.setFiber i ⟨fiber.state, .executing action startedAt true⟩)
          story := by
        refine told.moves there (by simp [turn, Turn.isIdle]) ⟨fiber.state.inFlight, rfl⟩ ?_
          (by simp) (by simp) (by simp [turn, Turn.action]) (by simp [turn, Turn.hasActed])
        intro entry member
        exact ⟨(mine.flight entry member).1, rfl⟩
      exact { moved with }
    · cases step
  · cases step

theorem settle {result : ExecutionResult} (told : Told initial o story)
    (there : o.fibers[i]? = some fiber) (fits : result.Fits)
    (step : o.nextOf i fiber (.settle i result) = some after) : Told initial after story := by
  simp only [nextOf] at step
  split at step
  · rename_i action startedAt sent turn
    cases step
    refine told.moves there (by simp [turn, Turn.isIdle]) ⟨none, rfl⟩ (by simp) ?_ (by simp)
      (by simp [turn, Turn.action]) (by simp [turn, Turn.hasActed])
    intro _ _ _ result' same
    cases same
    exact ⟨fits, rfl⟩
  · cases step

theorem append (told : Told initial o story) (there : o.fibers[i]? = some fiber)
    (step : o.nextOf i fiber (.append i now) = some after) :
    Told initial after (story ++ (o.happening (.append i now)).toList) := by
  simp only [nextOf] at step
  split at step
  · rename_i action startedAt sent result turn
    cases step
    have under : fiber.turn.isIdle = false := by simp [turn, Turn.isIdle]
    obtain ⟨action', rest, before, stage, target, actions, at_⟩ := told.busy there under
    obtain rfl := at_.own fiber (mem_of_getElem? there) action (by simp [turn, Turn.action])
    have mine := told.fibers i fiber there
    obtain ⟨fits, landed⟩ := mine.fits action startedAt sent result turn
    have happens : o.happening (.append i now) = some (.acted i action (.executed result)) := by
      simp [happening, there, turn]
    have added := @endAction_attempted o.id action fiber.state startedAt now result fits
    have acted : (endAction o.id action startedAt now result fiber.state).turn.hasActed = true := by
      unfold endAction reportTurn
      dsimp only
      split <;> split <;> rfl
    rw [happens]
    exact told.attempts there (mine.free under) stage target actions at_
      (by simp [turn, Turn.hasActed]) added (added.inFlight landed) acted
  · cases step

/-! ### From one action to the next -/

theorem few_ready (told : Follows initial o story) (accepted : o.id.schedule.Accepted)
    (ready : Ready o.fibers story o.id.schedule.actions) (there : o.fibers[i]? = some fiber) :
    fiber.state.attempts.length + fiber.state.inFlight.toList.length ≤ 32 := by
  have mine := told.fibers i fiber there
  have landed := mine.landed (Turn.action_of_idle (ready.idle fiber (mem_of_getElem? there)))
  have most := accepted.fewActions
  rw [mine.count, landed]
  by_cases free : fiber.state.activeKey = none
  · simp [(mine.held free).1]
  · have deeds := congrArg length (ready.deeds i fiber there free)
    have short := length_filter_le isTargetAction o.id.schedule.actions
    rw [length_map] at deeds
    simp only [Option.toList_none, length_nil]
    omega

theorem any_attempts (mine : TargetTold i story fiber) (p : ScheduleAttemptStatus → Bool) :
    fiber.state.attempts.any (fun entry => p entry.status) =
      ((deedsOf i story).map fun deed => deed.2.outcome fiber.state.target).any (fun outcome => p outcome.status) := by
  have told := congrArg (any · fun said => p said.2.status) mine.attempts
  simpa [any_map, Function.comp_def, attemptOutcome] using told

/-- The record of an occurrence that is at its end tells what happened. -/
theorem tells (told : Follows initial o story) (ready : Ready o.fibers story o.id.schedule.actions) (now : Nat) :
    Tells o.id initial story (o.run now (o.status now)) := by
  have read : ∀ (i : Nat) target, (o.run now (o.status now)).targetRuns[i]? = some target →
      ∃ fiber, o.fibers[i]? = some fiber ∧ target = targetRun o.id now fiber.state := by
    intro i target found
    simp only [Occurrence.run, getElem?_map] at found
    obtain ⟨fiber, there, rfl⟩ := Option.map_eq_some_iff.mp found
    exact ⟨fiber, there, rfl⟩
  have landed : ∀ (i : Nat) fiber, o.fibers[i]? = some fiber → fiber.state.inFlight = none :=
    fun i fiber there => (told.fibers i fiber there).landed
      (Turn.action_of_idle (ready.idle fiber (mem_of_getElem? there)))
  have key : ∀ (i : Nat) fiber state, o.fibers[i]? = some fiber → initial[i]? = some state →
      fiber.state.activeKey = state.activeKey := by
    intro i fiber state there here
    have same := congrArg (·[i]?) told.same
    simp only [getElem?_map, there, here, Option.map_some] at same
    exact (Prod.mk.inj (Option.some.inj same)).2
  refine ⟨?_, ?_, ?_, ?_, ?_, ⟨ready.waits, told.sequence⟩, ?_⟩
  · have same := congrArg (map Prod.fst) told.same
    rw [← told.targets]
    simpa [Occurrence.run, targetRun, Function.comp_def] using same
  · intro i target state found here keyless
    obtain ⟨fiber, there, rfl⟩ := read i target found
    have keyless : fiber.state.activeKey = none := (key i fiber state there here).trans keyless
    have mine := told.fibers i fiber there
    have none : fiber.state.attempts = [] := by
      rw [← length_eq_zero_iff, mine.count, (mine.held keyless).1, length_nil]
    simp [targetRun, keyless, none, landed i fiber there]
  · intro i target state found here free
    obtain ⟨fiber, there, rfl⟩ := read i target found
    exact ready.deeds i fiber there ((key i fiber state there here).symm ▸ free)
  · intro i target found
    obtain ⟨fiber, there, rfl⟩ := read i target found
    simpa [targetRun, landed i fiber there] using (told.fibers i fiber there).attempts
  · intro i target state found here free
    obtain ⟨fiber, there, rfl⟩ := read i target found
    have free : fiber.state.activeKey ≠ none := (key i fiber state there here).symm ▸ free
    have mine := told.fibers i fiber there
    have succeeded := any_attempts mine (· = .succeeded)
    have fails := mine.fails
    have free : fiber.state.activeKey.isNone = false := by
      simpa [Option.isSome_iff_ne_none] using free
    simp only [targetRun, toldStatus, landed i fiber there, free, fails, succeeded,
      Option.isSome_none, Bool.false_eq_true, if_false, any_map, Function.comp_def]
  · have failed : (o.sequenceAttempts.any fun entry =>
        entry.status = .failed || entry.status = .interrupted) =
        (waitsOf story).any (·.2.status = .failed) := by
      have said := congrArg (any · fun said => said.2.status = .failed || said.2.status = .interrupted) told.sequence
      simp only [any_map, Function.comp_def, attemptOutcome] at said
      rw [said, Bool.eq_iff_iff, any_eq_true, any_eq_true]
      refine exists_congr fun wait => and_congr_right fun member => ?_
      simp [told.uninterrupted wait member]
    have same : (o.run now (o.status now)).targetRuns.map (·.status) =
        o.fibers.map fun fiber => (targetRun o.id now fiber.state).status := by
      simp [Occurrence.run, Function.comp_def]
    rw [same]
    simp only [Occurrence.run, Occurrence.status, failed, Bool.or_eq_true, decide_eq_true_eq]

theorem proceed (told : Follows initial o story) (accepted : o.id.schedule.Accepted)
    (ready : Ready o.fibers story before) (actions : o.id.schedule.actions = before ++ rest)
    (unfinished : o.result = none) (now : Nat) : Told initial (o.proceed now rest) story := by
  cases rest with
  | nil =>
    rw [append_nil] at actions
    subst actions
    have fewWaits : (waitsOf story).length ≤ 32 := by
      have waits := congrArg length ready.waits
      have short := length_filter_le (!isTargetAction ·) o.id.schedule.actions
      have most := accepted.fewActions
      rw [length_map] at waits
      omega
    have fits := run_accepted told accepted (fun _ _ found => few_ready told accepted ready found)
      fewWaits now (o.status now)
    have parsed := scheduleRunSchema.parse_eq_some.mpr ⟨fits, rfl⟩
    rw [Occurrence.proceed, parsed]
    exact ⟨{ told with }, fun _ => unfinished, ready.idle, fits, tells told ready now⟩
  | cons action rest =>
    rw [Occurrence.proceed]
    have origin : ∀ (i : Nat) other, (o.fibers.map toAct)[i]? = some other →
        ∃ fiber, o.fibers[i]? = some fiber ∧ other = toAct fiber := by
      intro i other found
      rw [getElem?_map] at found
      obtain ⟨fiber, there, rfl⟩ := Option.map_eq_some_iff.mp found
      exact ⟨fiber, there, rfl⟩
    refine ⟨{ told with same := ?_, fibers := ?_ }, fun _ => unfinished, ?_⟩
    · rw [← told.same]
      simp [toAct]
    · intro i other found
      obtain ⟨fiber, there, rfl⟩ := origin i other found
      have mine := told.fibers i fiber there
      have landed := mine.landed (Turn.action_of_idle (ready.idle fiber (mem_of_getElem? there)))
      exact mine.moved (by simp [toAct, landed]) ⟨fiber.state.inFlight, rfl⟩ (by simp [toAct]) (by simp [toAct])
        (fun _ => rfl)
    refine stageTold_acting rfl actions ⟨ready.waits, ?_, ?_, ?_⟩
    · intro i other found free
      obtain ⟨fiber, there, rfl⟩ := origin i other found
      simpa [toAct, Turn.hasActed] using ready.deeds i fiber there free
    · intro other member
      obtain ⟨fiber, -, rfl⟩ := mem_map.mp member
      simp [toAct, Turn.action]
    · intro _ other member
      obtain ⟨fiber, -, rfl⟩ := mem_map.mp member
      rfl

theorem advance (told : Told initial o story) (accepted : o.id.schedule.Accepted)
    (step : o.next (.advance now) = some after) :
    Told initial after story := by
  simp only [Occurrence.next, told.uncrashed, Bool.false_eq_true, if_false] at step
  split at step
  · cases step
  rename_i guard
  simp only [Bool.or_eq_true, Bool.not_eq_true', not_or, Bool.not_eq_false] at guard
  have ended : ∀ fiber ∈ o.fibers, fiber.turn = .ended :=
    fun fiber member => Turn.eq_of_isEnded (all_eq_true.mp guard.2 fiber member)
  have stage := told.stage
  unfold StageTold at stage
  split at step
  · rename_i checking
    cases step
    rw [checking] at stage
    exact proceed told.toFollows accepted stage.1 rfl (told.result (by simp [checking])) now
  · rename_i action rest acting
    split at step
    · cases step
    rename_i target
    cases step
    rw [acting] at stage
    obtain ⟨before, actions, at_⟩ := stage
    have isTarget : isTargetAction action = true := by simpa [isTargetAction] using target
    have ready : Ready o.fibers story (before ++ [action]) := by
      refine ⟨?_, ?_, ?_⟩
      · simpa [isTarget] using at_.waits
      · intro i fiber there free
        have deeds := at_.deeds i fiber there free
        rw [ended fiber (mem_of_getElem? there)] at deeds
        simpa [isTarget, Turn.hasActed] using deeds
      · intro fiber member
        rw [ended fiber member]
        rfl
    exact proceed told.toFollows accepted ready (by simpa using actions) (told.result (by simp [acting])) now
  · cases step

/-- How a wait ends is short to say. -/
theorem waitOutcome_fits {startedAt : Nat} {failure : Option (Option String)}
    (fits : TextsFit (.wait startedAt now failure)) :
    isErrorText (o.waitOutcome failure).2 = true ∧ (o.waitOutcome failure).1 ≠ .interrupted := by
  unfold waitOutcome
  split
  · decide
  split
  · decide
  · split
    · decide
    · rename_i message
      exact ⟨(isErrorText_some _).mpr fits, by simp⟩

theorem wait {startedAt : Nat} {failure : Option (Option String)} (told : Told initial o story)
    (accepted : o.id.schedule.Accepted) (fits : TextsFit (.wait startedAt now failure))
    (step : o.next (.wait startedAt now failure) = some after) :
    Told initial after (story ++ (o.happening (.wait startedAt now failure)).toList) := by
  simp only [Occurrence.next, told.uncrashed, Bool.false_eq_true, if_false] at step
  split at step
  · rename_i action rest acting
    split at step
    · cases step
    rename_i guard
    cases step
    have stage := told.stage
    unfold StageTold at stage
    rw [acting] at stage
    obtain ⟨before, actions, at_⟩ := stage
    have isWait : isTargetAction action = false := by
      simp only [told.uncut, Bool.false_or, decide_eq_true_eq, not_not] at guard
      simp [isTargetAction, guard]
    have waiting := at_.waiting isWait
    obtain ⟨short, ended⟩ := waitOutcome_fits (o := o) fits
    have happens : o.happening (.wait startedAt now failure) =
        some (.waited action ⟨(o.waitOutcome failure).1, (o.waitOutcome failure).2, none⟩) := by
      simp [happening, acting]
    rw [happens, Option.toList_some]
    have follows : Follows initial (o.endWait action startedAt now failure)
        (story ++ [.waited action ⟨(o.waitOutcome failure).1, (o.waitOutcome failure).2, none⟩]) := by
      refine ⟨told.targets, told.same, ?_, ?_, ?_, ?_, told.uncut, told.uncrashed⟩
      · intro i fiber there
        exact (told.fibers i fiber there).elsewhere rfl rfl
      · rw [waitsOf_append, map_append, ← told.sequence]
        simp [endWait, sequenceAttempt, attemptOutcome]
      · intro entry member
        rcases mem_append.mp member with before | now'
        · exact told.sequenceAccepted entry before
        · obtain rfl := mem_singleton.mp now'
          exact sequenceAttempt_accepted o.id action startedAt now _ short
      · intro wait member
        rw [waitsOf_append] at member
        rcases mem_append.mp member with before | now'
        · exact told.uninterrupted wait before
        · obtain rfl := mem_singleton.mp now'
          exact ended
    have listed : o.id.schedule.actions = (before ++ [action]) ++ rest := by simpa using actions
    refine proceed follows accepted ⟨?_, ?_, ?_⟩ listed (told.result (by simp [acting])) now
    · simp [at_.waits, isWait]
    · intro i fiber there free
      have deeds := at_.deeds i fiber there free
      rw [waiting fiber (mem_of_getElem? there)] at deeds
      simpa [isWait, Turn.hasActed] using deeds
    · intro fiber member
      rw [waiting fiber member]
      rfl
  · cases step

theorem complete {stored : Bool} {after : Occurrence} (told : Told initial o story)
    (step : o.next (.complete stored) = some after) : Told initial after story := by
  simp only [Occurrence.next, told.uncrashed, Bool.false_eq_true, if_false] at step
  split at step
  · rename_i run completing
    split at step
    · cases step
    split at step
    · cases step
      have stage := told.stage
      unfold StageTold at stage
      rw [completing] at stage
      obtain ⟨idle, accepted, tells⟩ := stage
      have follows := told.toFollows
      exact ⟨{ follows with uncrashed := rfl }, fun apart => absurd rfl apart, idle, run, rfl, accepted, tells⟩
    · cases step
      exact told
  · cases step

theorem not_thrown (told : Told initial o story) : o.fibers.any (·.turn.isThrown) = false := by
  rw [any_eq_false]
  intro fiber member
  obtain ⟨i, there⟩ := getElem?_of_mem member
  have sane := (told.fibers i fiber there).sane
  cases turn : fiber.turn <;> simp_all [Turn.isThrown]

/-- Each step keeps it, where the occurrence is let run and its texts fit. -/
theorem next {event : OccurrenceEvent} (told : Told initial o story)
    (accepted : o.id.schedule.Accepted) (well : RunsWell (o, story) event)
    (step : o.next event = some after) :
    Told initial after (story ++ (o.happening event).toList) := by
  have whole := step
  simp only [Occurrence.next, told.uncrashed, Bool.false_eq_true, if_false] at step
  cases event with
  | check i found =>
    obtain ⟨fiber, there, step⟩ := Option.bind_eq_some_iff.mp step
    exact told.check there well.2 step
  | begin i now paused =>
    obtain ⟨fiber, there, step⟩ := Option.bind_eq_some_iff.mp step
    exact told.begin accepted there step
  | take i now =>
    obtain ⟨fiber, there, step⟩ := Option.bind_eq_some_iff.mp step
    simpa [happening] using told.take accepted there step
  | write i now stored =>
    obtain ⟨fiber, there, step⟩ := Option.bind_eq_some_iff.mp step
    exact told.write there step
  | send i =>
    obtain ⟨fiber, there, step⟩ := Option.bind_eq_some_iff.mp step
    simpa [happening] using told.send there step
  | settle i result =>
    obtain ⟨fiber, there, step⟩ := Option.bind_eq_some_iff.mp step
    simpa [happening] using told.settle there well.2 step
  | append i now =>
    obtain ⟨fiber, there, step⟩ := Option.bind_eq_some_iff.mp step
    exact told.append there step
  | wait startedAt now failure => exact told.wait accepted well.2 whole
  | advance now => simpa [happening] using told.advance accepted whole
  | complete stored => simpa [happening] using told.complete whole
  | reject =>
    dsimp only at step
    split at step
    · rename_i thrown
      simp [told.not_thrown] at thrown
    · cases step
  | abort => exact well.1.elim
  | crash => exact well.1.elim

end Told

end Kiln.Relay
