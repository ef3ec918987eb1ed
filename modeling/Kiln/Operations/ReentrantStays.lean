import Kiln.Operations.ReentrantSteady

/-!
# What stays withdrawn, and what stays paused

An operation that a selection chose and that hasn't been started is in no queue and not active,
and the calls of the operations started before it don't find it there. Where no call withdraws
such an operation, and none pauses the lanes over one that wouldn't carry on, what was withdrawn
never starts and holds nothing, and nothing that waits its turn starts while a pause stands.
Otherwise it may, and a run shows it.
-/

set_option linter.unusedSectionVars false

namespace Kiln.Operations
open Kiln.Lib OperationLanes LaneWorld

variable {κ : Type} [LinearOrder κ]

namespace LaneMachine

/-- Leaves alone what a selection has chosen and not started yet: it isn't withdrawn, and the lanes aren't paused over
it unless it carries on. -/
def Careful (machine : LaneMachine κ) : LaneTurn κ → Prop
  | .call (.cancel id) | .call (.withdraw id) | .call (.interrupt id) => id ∉ machine.chosen
  | .call (.setPaused true) => ∀ id ∈ machine.chosen, (machine.world.lanes.waiters id).carriesOnWhilePaused = true
  | _ => True

/-! ## The calls -/

variable {machine : LaneMachine κ} {world : LaneWorld κ}

/-- A call that is done at once. -/
theorem Orderly.put (h : Orderly machine) (counted : Counted machine.chosen world)
    (onwards : Onwards machine.world.lanes world.lanes) :
    Orderly { machine with world := world } :=
  ⟨counted, h.steady.stay onwards⟩

/-- A call that goes on to `#grant`. -/
theorem Orderly.grants (h : Orderly machine) (counted : Counted machine.chosen world)
    (onwards : Onwards machine.world.lanes world.lanes) :
    Orderly ({ machine with world := world }.enter [granting]) := by
  refine ⟨counted, h.steady.put onwards ?_ ?_⟩
  · simpa [granting, FrameOk] using ⟨_, LockTable.sums_empty⟩
  · simp [granting, Plain]

/-- `#admit`, with its newcomer in line. -/
theorem Orderly.admits {machine : LaneMachine κ} (h : Orderly machine) {id : WaiterId}
    (apart : id ∉ machine.chosen) (whenBusy : Option (WhenBusy κ)) :
    Orderly (machine.enter [granting, .admitting id whenBusy]) := by
  refine ⟨h.counted, fun frame member => ?_, ⟨apart, h.steady.newcomers⟩, h.steady.hushed,
    h.steady.returns, h.steady.stands⟩
  simp only [enter, List.cons_append, List.nil_append, List.mem_cons] at member
  rcases member with rfl | rfl | member
  · exact ⟨[], LockTable.sums_empty⟩
  · trivial
  · exact h.steady.frames frame member

variable {lanes : OperationLanes κ}

theorem exempt_of_letIn {admission : LaneAdmission κ} {inside : Bool}
    (letIn : lanes.turnsAway (makeWaiter admission inside) inside = none)
    (paused : lanes.paused = true) : exempt (makeWaiter admission inside) = true := by
  unfold turnsAway at letIn
  split at letIn
  · cases letIn
  · rename_i stays
    cases inside with
    | true => simp [exempt, makeWaiter]
    | false => simpa [exempt, makeWaiter, paused] using stays

theorem enqueue_paused (lanes : OperationLanes κ) (id : WaiterId) (locks : AdmissionLocks κ) :
    (lanes.enqueue id locks).paused = lanes.paused := by
  have pushed : (lanes.push id).paused = lanes.paused := by
    unfold push
    split <;> rfl
  cases locks with
  | lookup => exact pushed
  | known list => exact pushed

theorem beginAdmit_orderly (h : Orderly machine) (admission : LaneAdmission κ) (inside : Bool) :
    Orderly (machine.beginAdmit admission inside) := by
  have placed := h.counted.placed
  have new := makeWaiter_new admission inside
  unfold beginAdmit
  dsimp only
  cases turned : machine.world.lanes.turnsAway (makeWaiter admission inside) inside with
  | some error =>
    -- It is told at once, and is in no queue.
    have fresh := alloc_placed placed new
    have waiting : ((machine.world.lanes.alloc (makeWaiter admission inside)).waiters
        machine.world.lanes.admitted).state = .waiting := by
      rw [alloc_waiters, if_pos rfl, new.state]
    have rejected := fresh.conclude (.fail error)
    have evolves := (evolves_alloc _ _).trans (evolves_conclude waiting (.fail error))
    have done : (((machine.world.lanes.alloc (makeWaiter admission inside)).reject
        machine.world.lanes.admitted error).waiters machine.world.lanes.admitted).state = .done := by
      rw [reject, conclude_waiters, if_pos rfl]
    refine h.put (h.counted.newcomer rejected evolves rfl
        (fun running => absurd (done.symm.trans running) (by simp)) fun _ => Or.inl)
      ⟨Nat.le_succ _, rfl, fun id below => (evolves.2 id below).onward, fun _ id above state => ?_⟩
    rcases Nat.eq_or_lt_of_le above with rfl | beyond
    · exact absurd done state
    · have bound := rejected.bound id state
      exact absurd (Nat.lt_succ_iff.mp bound) (not_le.mpr beyond)
  | none =>
    have line := enqueue_enqueued placed new admission.locks
    have own := line.own
    have unchosen : machine.world.lanes.admitted ∉ machine.chosen := placed.not_admitted.2.2.2
    refine @Orderly.admits κ _ { machine with world := _ } (h.put
      (h.counted.newcomer line.placed line.evolves line.admitted (by rw [own]; simp [new.state]) fun id up => ?_)
      ⟨line.evolves.1, enqueue_paused _ _ _, fun id below => (line.evolves.2 id below).onward,
        fun paused id above state => ?_⟩) _ unchosen admission.whenBusy
    · cases kind : admission.locks with
      | known list =>
        simp only [kind] at up
        exact .inl up
      | lookup =>
        simp only [kind, Function.update_apply] at up
        split at up
        · rename_i same
          subst same
          refine Or.inr ⟨rfl, ?_⟩
          rw [kind] at own
          rw [own]
        · exact .inl up
    · rcases Nat.eq_or_lt_of_le above with rfl | beyond
      · rw [own]
        have same := enqueue_paused (machine.world.lanes.alloc (makeWaiter admission inside))
          machine.world.lanes.admitted admission.locks
        exact exempt_of_letIn turned (same.symm.trans paused)
      · have bound := line.placed.bound id state
        rw [line.admitted] at bound
        exact absurd (Nat.lt_succ_iff.mp bound) (not_le.mpr beyond)

variable {id : WaiterId} {batch : List WaiterId}

theorem letGo_onwards (placed : Placed batch [] lanes) (active : id ∈ lanes.active) :
    Onwards lanes (lanes.letGo id) := by
  refine ⟨le_rfl, rfl, fun other _ => ?_, fun _ other above state => ?_⟩
  · rw [letGo_waiters]
    split
    · rename_i same; subst same
      exact ⟨rfl, by simp, by simp⟩
    · exact (Moves.refl _).onward
  · exact absurd ((placed.letGo active).bound other state) (not_lt.mpr above)

/-- `#cancel` of anything a selection hasn't just chosen. -/
theorem beginCancel_orderly (h : Orderly machine) (unchosen : id ∉ machine.chosen) :
    Orderly (machine.beginCancel id) := by
  have placed := h.counted.placed
  have fiberless : ∀ other, machine.world.lanes.admitted ≤ other →
      machine.world.awaiting other = 0 := fun other above => (h.counted.fresh other above).1
  unfold beginCancel
  dsimp only
  cases state : (machine.world.lanes.waiters id).state with
  | waiting =>
    have out := remove_conclude placed state unchosen (.fail (withdrawnError (machine.world.lanes.waiters id)))
    have paused : ((machine.world.lanes.remove id).conclude id
        (.fail (withdrawnError (machine.world.lanes.waiters id)))).paused =
          machine.world.lanes.paused := remove_paused _ _
    refine h.grants (h.counted.moves out.placed out.evolves out.admitted fiberless rfl rfl
      (fun _ up => up) fun other gone => ?_) (out.evolves.onwards out.placed out.admitted paused)
    simp only [Function.update_apply] at gone
    split at gone
    · rename_i same; subst same
      exact .inr ⟨.inl state, out.done⟩
    · exact .inl gone
  | granted =>
    have active := (placed.holds id).mp (.inl state)
    refine h.grants (h.counted.moves (placed.letGo active) (letGo_evolves state) rfl fiberless rfl
      rfl (fun _ up => up) fun other gone => ?_) (letGo_onwards placed active)
    simp only [Function.update_apply] at gone
    split at gone
    · rename_i same; subst same
      refine Or.inr ⟨.inr state, ?_⟩
      show ((machine.world.lanes.letGo other).waiters other).state = _
      rw [letGo_waiters, if_pos rfl]
    · exact .inl gone
  | running => exact h
  | done => exact h

/-- `setPaused` over nothing that a selection has just chosen and that wouldn't carry on. -/
theorem beginPause_orderly (h : Orderly machine) {paused : Bool}
    (carries : paused = true → ∀ id ∈ machine.chosen, (machine.world.lanes.waiters id).carriesOnWhilePaused = true) :
    Orderly (machine.beginPause paused) := by
  have placed : Placed machine.chosen [] { machine.world.lanes with paused := paused } :=
    h.counted.placed.congr rfl rfl rfl rfl rfl rfl
  unfold beginPause
  cases paused with
  | false =>
    exact ⟨h.counted.lanes placed (evolves_of_waiters rfl rfl) rfl, h.steady.frames,
      h.steady.newcomers, fun up => absurd up (by simp [withLanes]),
      fun up => absurd up (by simp [withLanes]), fun up => absurd up (by simp)⟩
  | true =>
    obtain ⟨steps, withdrawn⟩ := pauseWaiting_steps placed
    have still := pauseWaiting_paused { machine.world.lanes with paused := true }
    have onwards := steps.evolves.onwards steps.placed steps.admitted still
    refine ⟨h.counted.lanes steps.placed ((evolves_of_waiters rfl rfl).trans steps.evolves)
      steps.admitted, fun frame member => ?_, h.steady.newcomers, fun _ id waiting => ?_,
      fun _ => trivial, fun up => ⟨still, ?_⟩⟩
    · simp only [Bool.not_true, Bool.false_eq_true, if_false, enter, List.cons_append,
        List.nil_append, List.mem_cons] at member
      rcases member with rfl | member
      · simp [FrameOk]
      · exact frameOk_onwards onwards (h.steady.frames frame member)
    · -- It waited before, and wasn't withdrawn.
      have below : id < machine.world.lanes.admitted :=
        steps.admitted ▸ steps.placed.bound id (by
          intro done
          exact absurd (waiting.symm.trans done) (by simp))
      have onward := onwards.old id below
      have before := onward.waiting waiting
      have kept : id ∉ pauseWithdrawn { machine.world.lanes with paused := true } := by
        intro member
        exact absurd (waiting.symm.trans (withdrawn id member)) (by simp)
      rw [mem_pauseWithdrawn] at kept
      refine onward.exempt.trans ?_
      have places := (placed.waits id).mp before
      have inner := placed.inner id
      have chosen := carries rfl id
      simp only [exempt, Bool.or_eq_true, Bool.and_eq_true, Bool.not_eq_true']
      rcases places with line | nested | among | dropped
      · exact .inr (by simpa [line] using kept)
      · by_cases carriesOn : (machine.world.lanes.waiters id).carriesOnWhilePaused = true
        · exact .inr carriesOn
        · have alone := fun continues => kept ⟨.inr ⟨nested, continues⟩, by simpa using carriesOn⟩
          exact .inl ⟨inner nested, by simpa using alone⟩
      · exact .inr (chosen among)
      · simp at dropped
    · exact calm_onwards onwards still (h.steady.stands up).2

/-- The end of a lookup, and of an effect, while a selection's operations may be out of line. -/
theorem learn_onwards (placed : Placed batch [] lanes) (id : WaiterId) (locks : List (LaneLock κ)) :
    Onwards lanes (lanes.learn id locks) := by
  refine ⟨le_rfl, rfl, fun other _ => ?_, fun _ other above state => ?_⟩
  · rw [learn_waiters]
    split
    · rename_i same; subst same
      exact ⟨rfl, fun waiting => waiting, Or.inr⟩
    · exact (Moves.refl _).onward
  · rw [learn_waiters] at state
    split at state
    · rename_i same; subst same
      exact absurd (placed.bound other state) (not_lt.mpr above)
    · exact absurd (placed.bound other state) (not_lt.mpr above)

theorem beginRun_onwards (placed : Placed batch [] lanes)
    (granted : (lanes.waiters id).state = .granted) : Onwards lanes (lanes.beginRun id).2 := by
  obtain ⟨-, begun⟩ := beginRun_begun placed granted
  refine ⟨begun.admitted.ge, ?_, fun other _ => ?_, fun _ other above state => ?_⟩
  · rw [OperationLanes.beginRun, if_neg (not_not.mpr granted)]
    obtain ⟨starts, counted⟩ := foldl_countStart
      ((lanes.update id fun waiter => { waiter with state := .running }).locksOf id)
      (lanes.update id fun waiter => { waiter with state := .running })
    dsimp only
    rw [counted]
    rfl
  · rw [begun.waiters]
    split
    · rename_i same; subst same
      exact ⟨rfl, by simp, by simp⟩
    · exact (Moves.refl _).onward
  · exact absurd (begun.placed.bound other state) (not_lt.mpr (begun.admitted ▸ above))

/-- What a fiber that goes on finds, and what it leaves. -/
theorem resume_cases {after : LaneWorld κ} (step : world.step (.resume id) = some after) :
    after.withdrawn = world.withdrawn ∧ (after.lanes = world.lanes ∧ after.started = world.started ∨
        (world.lanes.waiters id).state = .granted ∧ after.lanes = (world.lanes.beginRun id).2 ∧
          after.started = Function.update world.started id (world.started id + 1)) := by
  simp only [LaneWorld.step] at step
  split at step
  · split at step
    · cases step
      by_cases granted : (world.lanes.waiters id).state = .granted
      · have begins : (world.lanes.beginRun id).1 = true := by
          rw [OperationLanes.beginRun, if_neg (not_not.mpr granted)]
        exact ⟨rfl, .inr ⟨granted, rfl, by simp only [begins, if_true]⟩⟩
      · have stays : world.lanes.beginRun id = (false, world.lanes) := by
          rw [OperationLanes.beginRun, if_pos granted]
        exact ⟨rfl, .inl (by simp [stays])⟩
    · cases step
      exact ⟨rfl, .inl ⟨rfl, rfl⟩⟩
  · cases step

variable {after : LaneMachine κ}

/-- A careful call. -/
theorem Orderly.call (h : Orderly machine) {call : LaneCall κ}
    (careful : Careful machine (.call call)) (step : machine.begin call = some after) :
    Orderly after := by
  have placed := h.counted.placed
  cases call with
  | admitTicket admission =>
    cases step
    exact beginAdmit_orderly h admission false
  | runNested admission =>
    cases step
    exact beginAdmit_orderly h admission true
  | cancel id | withdraw id =>
    simp only [begin] at step
    split at step
    · cases step
      exact beginCancel_orderly h careful
    · cases step
  | setPaused paused =>
    cases step
    refine beginPause_orderly h fun up => ?_
    subst up
    exact careful
  | lookupSucceeded id locks =>
    simp only [begin] at step
    split at step
    · rename_i pending
      split at step
      · cases step
        exact h.put (h.counted.endLookup id) (.refl placed)
      · cases step
        exact h.grants (h.counted.learn pending locks) (learn_onwards placed id locks)
    · cases step
  | lookupFailed id cause =>
    simp only [begin] at step
    split at step
    · rename_i pending
      split at step
      · cases step
        exact h.put (h.counted.endLookup id) (.refl placed)
      rename_i waiting
      cases step
      -- What was chosen has its locks.
      have unknown := (h.counted.each id (h.counted.below_of_lookup pending)).lookup pending
      have unchosen : id ∉ machine.chosen := by
        intro member
        have := placed.known id (List.mem_append_right _ member)
        simp [unknown] at this
      have out := remove_conclude placed (not_not.mp waiting) unchosen (.die cause)
      exact h.grants ((h.counted.endLookup id).lanes out.placed out.evolves out.admitted)
        (out.evolves.onwards out.placed out.admitted (remove_paused _ id))
    · cases step
  | run id =>
    simp only [begin] at step
    split at step
    · rename_i below
      cases step
      exact h.put (h.counted.startAwaiting below) (.refl placed)
    · cases step
  | resume id =>
    simp only [begin, Option.map_eq_some_iff] at step
    obtain ⟨world, resumed, rfl⟩ := step
    refine h.put (h.counted.resume resumed) ?_
    rcases (resume_cases resumed).2 with ⟨same, -⟩ | ⟨granted, begun, -⟩
    · rw [same]
      exact .refl placed
    · rw [begun]
      exact beginRun_onwards placed granted
  | interrupt id =>
    simp only [begin] at step
    split at step
    · cases step
      have stopped := h.put (h.counted.stopAwaiting id) (.refl placed)
      exact beginCancel_orderly stopped careful
    · cases step
  | finish id =>
    simp only [begin] at step
    split at step
    · rename_i goes
      cases step
      obtain ⟨-, running⟩ := h.counted.below_of_running goes
      rw [beginRelease_of_state (by exact running ▸ by simp)]
      exact h.grants (h.counted.finish goes) (letGo_onwards placed ((placed.holds id).mp (.inr running)))
    · cases step

/-! ## Effects start, and what is withdrawn stays so, by calls only -/

/-- Runs nothing, and takes back nothing of what was withdrawn. -/
structure Around (before after : LaneWorld κ) : Prop where
  started : after.started = before.started
  withdrawn : ∀ id, before.withdrawn id = true → after.withdrawn id = true

omit [LinearOrder κ] in
theorem Around.refl (world : LaneWorld κ) : Around world world := ⟨rfl, fun _ gone => gone⟩

theorem beginRelease_around (around : Around world machine.world) (id : WaiterId) :
    Around world (machine.beginRelease id).world := by
  unfold beginRelease
  dsimp only
  split
  · exact around
  · exact ⟨around.started, around.withdrawn⟩

theorem go_around (step : machine.step .go = some after) :
    Around machine.world after.world := by
  cases stack : machine.stack with
  | nil => simp [LaneMachine.step, stack] at step
  | cons frame rest =>
    simp only [LaneMachine.step, stack] at step
    cases step
    cases frame with
    | callback | pauseReturn | admitting _ _ => exact ⟨rfl, fun _ gone => gone⟩
    | starting ids => cases ids <;> exact ⟨rfl, fun _ gone => gone⟩
    | nested index blocked =>
      simp only [goFrame, goNested]
      split
      · split
        · exact ⟨rfl, fun _ gone => gone⟩
        · split
          · exact ⟨rfl, fun _ gone => gone⟩
          · split <;> exact ⟨rfl, fun _ gone => gone⟩
      · exact ⟨rfl, fun _ gone => gone⟩
    | pausing visited =>
      simp only [goFrame, goPausing]
      split
      · exact ⟨rfl, fun _ gone => gone⟩
      · split
        · exact ⟨rfl, fun _ gone => gone⟩
        · apply beginRelease_around
          exact ⟨rfl, fun _ gone => gone⟩

theorem update_gone {withdrawn : WaiterId → Bool} {other : WaiterId} (gone : withdrawn other = true) :
    Function.update withdrawn id true other = true := by
  rw [Function.update_apply]
  split
  · rfl
  · exact gone

theorem beginCancel_around (around : Around world machine.world) (id : WaiterId) :
    Around world (machine.beginCancel id).world := by
  unfold beginCancel
  dsimp only
  split
  · exact ⟨around.started, fun other gone => update_gone (around.withdrawn other gone)⟩
  · exact ⟨around.started, fun other gone => update_gone (around.withdrawn other gone)⟩
  · exact around

/-- An effect starts where a fiber goes on that waited for a grant, and nowhere else. -/
def Starts (before after : LaneWorld κ) : Prop :=
  ∃ id, (before.lanes.waiters id).state = .granted ∧ after.withdrawn = before.withdrawn ∧
    after.started = Function.update before.started id (before.started id + 1)

theorem call_around {call : LaneCall κ} (step : machine.begin call = some after) :
    Around machine.world after.world ∨ Starts machine.world after.world := by
  cases call with
  | admitTicket admission | runNested admission =>
    cases step
    unfold beginAdmit
    dsimp only
    split <;> exact .inl ⟨rfl, fun _ gone => gone⟩
  | cancel id | withdraw id =>
    simp only [begin] at step
    split at step
    · cases step
      exact .inl (beginCancel_around (.refl _) id)
    · cases step
  | setPaused paused =>
    cases step
    cases paused <;> exact .inl ⟨rfl, fun _ gone => gone⟩
  | lookupSucceeded id locks | lookupFailed id cause =>
    simp only [begin] at step
    split at step
    · split at step
      · cases step
        exact .inl ⟨rfl, fun _ gone => gone⟩
      · cases step
        exact .inl ⟨rfl, fun _ gone => gone⟩
    · cases step
  | run id =>
    simp only [begin] at step
    split at step
    · cases step
      exact .inl ⟨rfl, fun _ gone => gone⟩
    · cases step
  | resume id =>
    simp only [begin, Option.map_eq_some_iff] at step
    obtain ⟨world, resumed, rfl⟩ := step
    obtain ⟨withdrawn, started⟩ := resume_cases resumed
    rcases started with ⟨-, same⟩ | ⟨granted, -, counts⟩
    · exact .inl ⟨same, fun _ gone => withdrawn ▸ gone⟩
    · exact .inr ⟨id, granted, withdrawn, counts⟩
  | interrupt id =>
    simp only [begin] at step
    split at step
    · cases step
      refine Or.inl (beginCancel_around ?_ id)
      exact ⟨rfl, fun _ gone => gone⟩
    · cases step
  | finish id =>
    simp only [begin] at step
    split at step
    · cases step
      refine Or.inl (beginRelease_around ?_ id)
      exact ⟨rfl, fun _ gone => gone⟩
    · cases step

variable {turn : LaneTurn κ}

theorem step_around (step : machine.step turn = some after) :
    Around machine.world after.world ∨ Starts machine.world after.world := by
  cases turn with
  | go => exact .inl (go_around step)
  | call call =>
    simp only [LaneMachine.step] at step
    split at step
    · exact call_around step
    · cases step

theorem step_withdrawn (step : machine.step turn = some after)
    (gone : machine.world.withdrawn id = true) : after.world.withdrawn id = true := by
  rcases step_around step with around | ⟨_, _, same, _⟩
  · exact around.withdrawn id gone
  · rw [same]
    exact gone

theorem step_started (step : machine.step turn = some after)
    (starts : machine.world.started id < after.world.started id) :
    (machine.world.lanes.waiters id).state = .granted := by
  rcases step_around step with around | ⟨other, granted, -, counts⟩
  · exact absurd starts (by simp [around.started])
  · have same : id = other := by
      by_contra different
      exact absurd starts (by simp [counts, Function.update_of_ne different])
    exact same ▸ granted

/-! ## Whole runs -/

theorem initial_orderly (options : OperationLanesOptions κ) :
    Orderly (initial options : LaneMachine κ) := by
  refine ⟨(initial_coherent options).counted, ?_⟩
  exact ⟨by simp [initial], trivial, fun up => absurd up (by simp [initial, LaneWorld.initial, new]),
    fun _ => trivial, fun up => absurd up (by simp [initial])⟩

theorem Orderly.step {machine after : LaneMachine κ} (h : Orderly machine) {turn : LaneTurn κ}
    (careful : Careful machine turn) (step : machine.step turn = some after) : Orderly after := by
  cases turn with
  | go => exact h.go step
  | call call =>
    simp only [LaneMachine.step] at step
    split at step
    · exact h.call careful step
    · cases step

theorem orderly_of_reachable {options : OperationLanesOptions κ}
    (reached : ((reentrantSystem options).restrict Careful).Reachable machine) : Orderly machine :=
  reached.invariant (fun _ init => init ▸ initial_orderly options) fun _ _ _ orderly step => orderly.step step.1 step.2

/-! ## What stays -/

/-- What was withdrawn never starts, and never again holds locks: it isn't active, and no selection has it in hand. -/
def StaysWithdrawn (runs : System (LaneMachine κ) (LaneTurn κ)) : Prop :=
  ∀ machine, runs.Reachable machine → ∀ id, machine.world.withdrawn id = true →
    ∀ turns later, runs.Run machine turns later →
      later.world.started id = 0 ∧ id ∉ later.world.lanes.active ∧ id ∉ later.chosen

/-- While a pause stands that `setPaused` has returned from, nothing starts but what it leaves alone. -/
def StaysPaused (runs : System (LaneMachine κ) (LaneTurn κ)) : Prop :=
  ∀ machine, runs.Reachable machine → machine.stands = true → ∀ turn after, runs.step machine turn after →
      ∀ id, machine.world.started id < after.world.started id → exempt (machine.world.lanes.waiters id) = true

/-- The locks that are held: of the active operations, and of those a selection has in hand. -/
def heldLocks (machine : LaneMachine κ) : List (List (LaneLock κ)) :=
  (machine.world.lanes.active ++ machine.chosen).map machine.world.lanes.locksOf

theorem run_withdrawn {options : OperationLanesOptions κ} {later : LaneMachine κ} {turns : List (LaneTurn κ)}
    (run : ((reentrantSystem options).restrict Careful).Run machine turns later)
    (gone : machine.world.withdrawn id = true) : later.world.withdrawn id = true := by
  induction run with
  | nil => exact gone
  | snoc _ last ih => exact step_withdrawn last.2 ih

theorem Orderly.gone (h : Orderly machine) (withdrawn : machine.world.withdrawn id = true) :
    machine.world.started id = 0 ∧ id ∉ machine.world.lanes.active ∧ id ∉ machine.chosen := by
  have placed := h.counted.placed
  have below : id < machine.world.lanes.admitted := by
    by_contra above
    have fresh := (h.counted.fresh id (not_lt.mp above)).2.2.2.2
    simp [withdrawn] at fresh
  obtain ⟨done, never⟩ := (h.counted.each id below).withdrawn withdrawn
  refine ⟨never, fun active => ?_, fun among => ?_⟩
  · rcases (placed.holds id).mpr active with state | state <;> simp [done] at state
  · have waiting := (placed.waits id).mpr (.inr (.inr (.inl among)))
    simp [done] at waiting

/-- Where no call withdraws what a selection has in hand, and none pauses over it, the table
    holds what the active operations and those in hand have locked, what is withdrawn stays so,
    and what is paused stays so. -/
theorem reentrant_stays (options : OperationLanesOptions κ) :
    (∀ machine, ((reentrantSystem options).restrict Careful).Reachable machine →
      ∀ key, machine.world.lanes.held.held.get key =
        entry (exclusiveCount machine.heldLocks key) (sharedCount machine.heldLocks key)) ∧
    StaysWithdrawn ((reentrantSystem options).restrict Careful) ∧
    StaysPaused ((reentrantSystem options).restrict Careful) := by
  refine ⟨fun machine reached => ?_, fun machine reached id withdrawn turns later run => ?_,
    fun machine reached stands turn after step id starts => ?_⟩
  · exact (orderly_of_reachable reached).counted.placed.sums
  · exact (orderly_of_reachable (reached.run run)).gone (run_withdrawn run withdrawn)
  · have granted := step_started step.2 starts
    exact ((orderly_of_reachable reached).steady.stands stands).2 id (Or.inr granted)

/-- A restore ends that two changes wait for, which are then chosen together. The first of them has started, and can
call the lanes, while the second is still in hand. -/
def chosenTogether (carriesOn : Bool) : List (LaneTurn String) :=
  [.call (.admitTicket { label := "restore", locks := .known [exclusive "a", exclusive "b"] })] ++ .replicate 5 .go ++
  [.call (.run 0), .call (.resume 0), .call (.admitTicket { label := "first", locks := .known [exclusive "a"] })] ++
    .replicate 3 .go ++
  [.call (.admitTicket
    { label := "second", locks := .known [exclusive "b"], carriesOnWhilePaused := carriesOn })] ++
    .replicate 3 .go ++
  [.call (.run 1), .call (.run 2), .call (.finish 0), .go, .go, .call (.resume 1)]

instance (machine : LaneMachine κ) : (turn : LaneTurn κ) → Decidable (Careful machine turn)
  | .call (.cancel id) | .call (.withdraw id) | .call (.interrupt id) =>
      inferInstanceAs (Decidable (id ∉ machine.chosen))
  | .call (.setPaused true) =>
      inferInstanceAs (Decidable (∀ id ∈ machine.chosen, (machine.world.lanes.waiters id).carriesOnWhilePaused = true))
  | .call (.setPaused false) | .call (.admitTicket _) | .call (.runNested _)
  | .call (.lookupSucceeded _ _) | .call (.lookupFailed _ _) | .call (.run _)
  | .call (.resume _) | .call (.finish _) | .go => .isTrue trivial

/-- The first one admits a third change and withdraws it again, and pauses the lanes over the
    second, which carries on. -/
def carefulCalls : List (LaneTurn String) :=
  chosenTogether true ++
  [.call (.admitTicket { label := "third", locks := .known [exclusive "a"] })] ++
    .replicate 3 .go ++ [.call (.withdraw 3), .go, .go] ++
  [.call (.setPaused true)] ++ .replicate 7 .go

def carefulMachine : LaneMachine String :=
  (runAll (fun machine turn => if Careful machine turn then machine.step turn else none)
    (initial {}) carefulCalls).get (by decide)

theorem reentrant_stays_carefulMachine :
    carefulMachine.stands = true ∧ carefulMachine.world.withdrawn 3 = true ∧
      (∀ turns later, ((reentrantSystem {}).restrict Careful).Run carefulMachine turns later →
        later.world.started 3 = 0) ∧
      ∀ turn after, ((reentrantSystem {}).restrict Careful).step carefulMachine turn after →
        ∀ id, carefulMachine.world.started id < after.world.started id →
          exempt (carefulMachine.world.lanes.waiters id) = true := by
  have reached : ((reentrantSystem {}).restrict Careful).Reachable carefulMachine :=
    System.reachable_of_guardedRunAll (· = initial {}) LaneMachine.step Careful rfl carefulCalls
      (by decide)
  obtain ⟨-, withdrawn, paused⟩ := reentrant_stays ({} : OperationLanesOptions String)
  exact ⟨by decide, by decide,
    fun turns later run => (withdrawn _ reached 3 (by decide) turns later run).1,
    paused _ reached (by decide)⟩

/-- The first one withdraws the second, which is told so, and is started all the same: nothing runs under it, and
nothing ever lets go of its lock. -/
def withdrawnInHandCalls : List (LaneTurn String) :=
  chosenTogether false ++ [.call (.withdraw 2)] ++ .replicate 6 .go

def withdrawnInHand : LaneMachine String :=
  (runAll LaneMachine.step (initial {}) withdrawnInHandCalls).get (by decide)

/-- The first one pauses the lanes. Nothing of the second waits or is active, so that the pause returns, and the second
starts. -/
def pausedOverHandCalls : List (LaneTurn String) :=
  chosenTogether false ++ [.call (.setPaused true)] ++ .replicate 7 .go

def pausedOverHand : LaneMachine String :=
  (runAll LaneMachine.step (initial {}) pausedOverHandCalls).get (by decide)

def startedWhilePaused : LaneMachine String :=
  (pausedOverHand.step (.call (.resume 2))).get (by decide)

theorem reentrant_does_not_stay :
    ¬ StaysWithdrawn (reentrantSystem ({} : OperationLanesOptions String)) ∧
      ¬ StaysPaused (reentrantSystem ({} : OperationLanesOptions String)) := by
  constructor
  · intro stays
    have reached : (reentrantSystem {}).Reachable withdrawnInHand :=
      System.reachable_of_runAll (· = initial {}) LaneMachine.step rfl withdrawnInHandCalls
        (by decide)
    have active := (stays _ reached 2 (by decide) [] withdrawnInHand (.nil _)).2.1
    exact active (by decide)
  · intro stays
    have reached : (reentrantSystem {}).Reachable pausedOverHand :=
      System.reachable_of_runAll (· = initial {}) LaneMachine.step rfl pausedOverHandCalls
        (by decide)
    have step : (reentrantSystem {}).step pausedOverHand (.call (.resume 2)) startedWhilePaused :=
      (Option.some_get _).symm
    have exempted := stays _ reached (by decide) _ _ step 2 (by decide)
    cases exempted

end LaneMachine

end Kiln.Operations
