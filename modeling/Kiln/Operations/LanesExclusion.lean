import Mathlib
import Kiln.Operations.LanesCalls

/-!
# Mutual exclusion, and effects that start once

The lanes and the fibers around them, over whole runs: `Coherent` ties how often each effect
was started and ended to the state of its waiter, every step keeps it, and what it says of the
lock table and of the effects is read off.
-/

set_option linter.unusedSectionVars false

namespace Kiln.Operations
open Kiln.Lib OperationLanes Function

namespace LaneWorld

variable {κ : Type} [LinearOrder κ]

/-- A waiter is answered with an error, was given a refusal by a pause, or was withdrawn by a call of `#cancel` that
said so. -/
def TurnedAway (world : LaneWorld κ) (id : WaiterId) : Prop :=
  world.withdrawn id = true ∨ (world.lanes.waiters id).refusal ≠ none ∨
    ((world.lanes.waiters id).granted ≠ none ∧ (world.lanes.waiters id).granted ≠ some .void)

/-- What the counts around one waiter have to do with it. -/
structure CoherentAt (waiter : Waiter κ) (lookup : Bool) (started finished : Nat)
    (withdrawn : Bool) : Prop where
  lookup : lookup = true → waiter.locks = none
  running : waiter.state = .running ↔ finished < started
  early : waiter.state = .waiting ∨ waiter.state = .granted → started = 0
  once : started ≤ 1
  ended : finished ≤ started
  withdrawn : withdrawn = true → waiter.state = .done ∧ started = 0
  answered : waiter.refusal ≠ none ∨ (waiter.granted ≠ none ∧ waiter.granted ≠ some .void) →
    waiter.state = .done ∧ started = 0

/-- Every waiter is in one place and agrees with the counts around it, and nothing is known of waiters there aren't yet.
`batch` is chosen and not yet started. -/
structure Counted (batch : List WaiterId) (world : LaneWorld κ) : Prop where
  placed : Placed batch [] world.lanes
  fresh : ∀ id, world.lanes.admitted ≤ id → world.awaiting id = 0 ∧ world.lookups id = false ∧
    world.started id = 0 ∧ world.finished id = 0 ∧ world.withdrawn id = false
  each : ∀ id < world.lanes.admitted, CoherentAt (world.lanes.waiters id) (world.lookups id)
    (world.started id) (world.finished id) (world.withdrawn id)

variable {batch : List WaiterId} {id : WaiterId}

theorem answered_done {lanes : OperationLanes κ} (placed : Placed batch [] lanes)
    (answered : (lanes.waiters id).refusal ≠ none ∨
      ((lanes.waiters id).granted ≠ none ∧ (lanes.waiters id).granted ≠ some .void)) :
    (lanes.waiters id).state = .done := by
  have pending := placed.pending id
  have settled := placed.settled id
  cases state : (lanes.waiters id).state <;> simp_all

theorem CoherentAt.moves {lanes : OperationLanes κ}
    {before : Waiter κ} {lookup lookup' withdrawn withdrawn' : Bool} {started finished : Nat}
    (h : CoherentAt before lookup started finished withdrawn) (placed : Placed batch [] lanes)
    (moves : Moves before (lanes.waiters id))
    (known : lookup' = true → lookup = true)
    (out : withdrawn' = true → withdrawn = true ∨ ((before.state = .waiting ∨ before.state = .granted) ∧
        (lanes.waiters id).state = .done)) :
    CoherentAt (lanes.waiters id) lookup' started finished withdrawn' := by
  have running := h.running
  have early := h.early
  have state := moves.state
  refine ⟨fun up => moves.unknown (h.lookup (known up)), ?_, ?_, h.once, h.ended, fun gone => ?_, fun answered => ?_⟩
  · rw [← running]
    grind
  · grind
  · rcases out gone with gone | ⟨arrived, done⟩
    · obtain ⟨done, none⟩ := h.withdrawn gone
      exact ⟨moves.done done, none⟩
    · exact ⟨done, early arrived⟩
  have done := answered_done placed answered
  refine ⟨done, ?_⟩
  rw [done] at state
  rcases state with same | ⟨_, impossible⟩ | ⟨arrived, _⟩
  · obtain ⟨granted, refusal⟩ := moves.answer same.symm
    rw [granted, refusal] at answered
    exact (h.answered answered).2
  · simp at impossible
  · exact early arrived

/-! ## What the counts survive -/

variable {world after : LaneWorld κ} {more : List WaiterId}

theorem Counted.moves (h : Counted batch world) (placed : Placed more [] after.lanes)
    (evolves : Evolves world.lanes after.lanes)
    (admitted : after.lanes.admitted = world.lanes.admitted)
    (awaiting : ∀ id, world.lanes.admitted ≤ id → after.awaiting id = 0)
    (started : after.started = world.started) (finished : after.finished = world.finished)
    (lookups : ∀ id, after.lookups id = true → world.lookups id = true)
    (withdrawn : ∀ id, after.withdrawn id = true → world.withdrawn id = true ∨
      ((world.lanes.waiters id).state = .waiting ∨ (world.lanes.waiters id).state = .granted) ∧
        (after.lanes.waiters id).state = .done) : Counted more after := by
  refine ⟨placed, fun id above => ?_, fun id below => ?_⟩
  · rw [admitted] at above
    obtain ⟨-, noLookup, noStart, noFinish, notWithdrawn⟩ := h.fresh id above
    have notBound : ∀ state : WaiterState, state ≠ .done → (world.lanes.waiters id).state ≠ state := by
      intro state notDone same
      exact absurd (h.placed.bound id (same ▸ notDone)) (not_lt.mpr above)
    refine ⟨awaiting id above, ?_, started ▸ noStart, finished ▸ noFinish, ?_⟩
    · by_contra up
      have := lookups id (by simpa using up)
      simp [noLookup] at this
    · by_contra gone
      rcases withdrawn id (by simpa using gone) with gone | ⟨state | state, _⟩
      · simp [notWithdrawn] at gone
      · exact notBound _ (by simp) state
      · exact notBound _ (by simp) state
  · rw [admitted] at below
    rw [started, finished]
    exact (h.each id below).moves placed (evolves.2 id below) (lookups id) (withdrawn id)

/-- Moving every waiter, with nothing else of the world changed. -/
theorem Counted.lanes (h : Counted batch world) {lanes : OperationLanes κ}
    (placed : Placed more [] lanes) (evolves : Evolves world.lanes lanes)
    (admitted : lanes.admitted = world.lanes.admitted) :
    Counted more { world with lanes := lanes } :=
  h.moves placed evolves admitted (fun id above => (h.fresh id above).1) rfl rfl (fun _ up => up) fun _ => Or.inl

/-- A new waiter, perhaps with a lookup to settle. -/
theorem Counted.newcomer (h : Counted batch world) {lanes : OperationLanes κ} (placed : Placed more [] lanes)
    (evolves : Evolves world.lanes lanes) (admitted : lanes.admitted = world.lanes.admitted + 1)
    (notRunning : (lanes.waiters world.lanes.admitted).state ≠ .running)
    {lookups : WaiterId → Bool}
    (lookup : ∀ id, lookups id = true → world.lookups id = true ∨
      (id = world.lanes.admitted ∧ (lanes.waiters id).locks = none)) :
    Counted more { world with lanes := lanes, lookups := lookups } := by
  refine ⟨placed, fun id above => ?_, fun id below => ?_⟩
  · have above : world.lanes.admitted + 1 ≤ id := admitted ▸ above
    obtain ⟨noFiber, noLookup, rest⟩ := h.fresh id ((Nat.le_succ _).trans above)
    refine ⟨noFiber, ?_, rest⟩
    by_contra up
    rcases lookup id (by simpa using up) with up | ⟨same, _⟩
    · simp [noLookup] at up
    · exact absurd (same ▸ above) (Nat.not_succ_le_self _)
  have below : id < world.lanes.admitted + 1 := admitted ▸ below
  rcases Nat.lt_succ_iff_lt_or_eq.mp below with below | rfl
  · refine (h.each id below).moves placed (evolves.2 id below) (fun up => ?_) Or.inl
    rcases lookup id up with up | ⟨same, _⟩
    · exact up
    · exact absurd below (same ▸ lt_irrefl _)
  obtain ⟨-, noLookup, noStart, noFinish, notWithdrawn⟩ := h.fresh _ le_rfl
  simp only [noStart, noFinish, notWithdrawn]
  refine ⟨fun up => ?_, ?_, fun _ => rfl, Nat.zero_le _, le_rfl, by simp,
    fun answered => ⟨answered_done placed answered, rfl⟩⟩
  · rcases lookup _ up with up | ⟨_, unknown⟩
    · simp [noLookup] at up
    · exact unknown
  · simp only [lt_irrefl, iff_false]
    exact notRunning

theorem Counted.below_of_lookup (h : Counted batch world) (pending : world.lookups id = true) :
    id < world.lanes.admitted := by
  by_contra above
  have := (h.fresh id (not_lt.mp above)).2.1
  simp [pending] at this

theorem Counted.below_of_running (h : Counted batch world) (goes : world.finished id < world.started id) :
    id < world.lanes.admitted ∧ (world.lanes.waiters id).state = .running := by
  have below : id < world.lanes.admitted := by
    by_contra above
    have := (h.fresh id (not_lt.mp above)).2.2.1
    omega
  exact ⟨below, (h.each id below).running.mpr goes⟩

theorem Counted.endLookup (h : Counted batch world) (id : WaiterId) :
    Counted batch { world with lookups := update world.lookups id false } := by
  refine h.moves h.placed (.refl _) rfl (fun other above => (h.fresh other above).1) rfl rfl
    (fun other up => ?_) fun _ => Or.inl
  simp only [update_apply] at up
  split at up
  · simp at up
  · exact up

/-- A lookup that succeeds: the locks of a waiter are known. -/
theorem Counted.learn (h : Counted batch world) (pending : world.lookups id = true) (locks : List (LaneLock κ)) :
    Counted batch { world with
      lanes := world.lanes.learn id locks
      lookups := update world.lookups id false } := by
  have below := h.below_of_lookup pending
  have unknown := (h.each id below).lookup pending
  have ended := h.endLookup id
  refine ⟨learn_placed h.placed below unknown locks, ended.fresh, fun other less => ?_⟩
  have coherent := ended.each other less
  show CoherentAt ((world.lanes.learn id locks).waiters other) _ _ _ _
  rw [learn_waiters]
  by_cases same : other = id
  · subst same
    rw [if_pos rfl]
    exact ⟨by simp, coherent.running, coherent.early, coherent.once, coherent.ended,
      coherent.withdrawn, coherent.answered⟩
  · rw [if_neg same]
    exact coherent

/-- A fiber that begins to wait for a grant, and one that goes on. -/
theorem Counted.awaiting (h : Counted batch world) {awaiting : WaiterId → Nat}
    (none : ∀ id, world.lanes.admitted ≤ id → awaiting id = 0) :
    Counted batch { world with awaiting := awaiting } :=
  ⟨h.placed, fun id above => ⟨none id above, (h.fresh id above).2⟩, h.each⟩

theorem Counted.stopAwaiting (h : Counted batch world) (id : WaiterId) : Counted batch { world with
      awaiting := update world.awaiting id (world.awaiting id - 1) } := by
  refine h.awaiting fun other above => ?_
  have noFiber := (h.fresh other above).1
  simp only [update_apply]
  split
  · rename_i same; subst same; simp [noFiber]
  · exact noFiber

theorem Counted.startAwaiting (h : Counted batch world) (below : id < world.lanes.admitted) : Counted batch { world with
      awaiting := update world.awaiting id (world.awaiting id + 1) } := by
  refine h.awaiting fun other above => ?_
  have different : other ≠ id := ne_of_gt (below.trans_le above)
  simp only [update_of_ne different, (h.fresh other above).1]

/-- The start of an effect. -/
theorem Counted.beginRun (h : Counted batch world) (granted : (world.lanes.waiters id).state = .granted) :
    Counted batch { world with
      lanes := (world.lanes.beginRun id).2
      started := update world.started id (world.started id + 1) } := by
  obtain ⟨-, begun⟩ := beginRun_begun h.placed granted
  have below : id < world.lanes.admitted := h.placed.bound id (by simp [granted])
  refine ⟨begun.placed, fun other above => ?_, fun other less => ?_⟩
  · have above : world.lanes.admitted ≤ other := begun.admitted ▸ above
    have different : other ≠ id := ne_of_gt (below.trans_le above)
    obtain ⟨noFiber, noLookup, noStart, rest⟩ := h.fresh other above
    exact ⟨noFiber, noLookup, by simp only [update_of_ne different, noStart], rest⟩
  have less : other < world.lanes.admitted := begun.admitted ▸ less
  have coherent := h.each other less
  simp only [begun.waiters, update_apply]
  by_cases same : other = id
  · subst same
    have none : world.started other = 0 := coherent.early (Or.inr granted)
    have noEnd : world.finished other = 0 := by
      have := coherent.ended
      omega
    have settled := h.placed.settled other (Or.inl granted)
    simp only [if_true, none, noEnd]
    refine ⟨coherent.lookup, by simp, by simp, le_rfl, by simp, fun gone => ?_, fun answered => ?_⟩
    · have := (coherent.withdrawn gone).1
      simp [granted] at this
    · simp [settled.1, settled.2] at answered
  · simp only [if_neg same]
    exact coherent

/-- A fiber whose wait is over starts its effect, or finds that it can't. -/
theorem Counted.resume (h : Counted batch world) (step : world.step (.resume id) = some after) :
    Counted batch after := by
  simp only [LaneWorld.step] at step
  split at step
  · split at step
    · cases step
      by_cases granted : (world.lanes.waiters id).state = .granted
      · have begins := (beginRun_begun h.placed granted).1
        simp only [begins, if_true]
        exact (h.stopAwaiting id).beginRun granted
      · have stays : world.lanes.beginRun id = (false, world.lanes) := by
          rw [OperationLanes.beginRun, if_pos granted]
        simp only [stays, Bool.false_eq_true, if_false]
        exact h.stopAwaiting id
    · cases step
      exact h.stopAwaiting id
  · cases step

/-- The end of an effect. -/
theorem Counted.finish (h : Counted batch world) (goes : world.finished id < world.started id) :
    Counted batch { world with
      lanes := world.lanes.letGo id
      finished := update world.finished id (world.finished id + 1) } := by
  obtain ⟨below, running⟩ := h.below_of_running goes
  have active := (h.placed.holds id).mp (Or.inr running)
  refine ⟨h.placed.letGo active, fun other above => ?_, fun other less => ?_⟩
  · have different : other ≠ id := ne_of_gt (below.trans_le above)
    obtain ⟨noFiber, noLookup, noStart, noEnd, rest⟩ := h.fresh other above
    exact ⟨noFiber, noLookup, noStart, by simp only [update_of_ne different, noEnd], rest⟩
  have own := h.each other less
  simp only [letGo_waiters, update_apply]
  by_cases same : other = id
  · subst same
    simp only [if_true]
    have settled := h.placed.settled other (Or.inr running)
    have once := own.once
    refine ⟨own.lookup, ?_, by simp, own.once, goes, fun gone => ?_, fun answered => ?_⟩
    · simp only [reduceCtorEq, false_iff, not_lt]
      omega
    · have := (own.withdrawn gone).1
      simp [running] at this
    · simp [settled.1, settled.2] at answered
  · simp only [if_neg same]
    exact own

/-! ## The steps -/

/-- The world between two calls. -/
structure Coherent (world : LaneWorld κ) : Prop where
  counted : Counted [] world
  chronicled : Chronicled world.lanes
  quiescent : Quiescent world.lanes

theorem Coherent.sound (h : Coherent world) : Sound world.lanes :=
  ⟨h.counted.placed, h.chronicled, h.quiescent⟩

theorem Coherent.of_sound (counted : Counted [] world) (sound : Sound world.lanes) :
    Coherent world :=
  ⟨counted, sound.chronicled, sound.quiescent⟩

theorem Coherent.cancel (h : Coherent world) (id : WaiterId) :
    Coherent (world.cancel id) := by
  obtain ⟨sound, evolves, admitted, said⟩ := cancel_sound h.sound id
  refine .of_sound (h.counted.moves sound.placed evolves admitted
    (fun other above => (h.counted.fresh other above).1) rfl rfl (fun _ up => up)
    fun other gone => ?_) sound
  simp only [LaneWorld.cancel] at gone ⊢
  by_cases yes : (world.lanes.cancel id).1 = true
  · rw [if_pos yes, update_apply] at gone
    split at gone
    · rename_i same; subst same
      exact Or.inr (said yes)
    · exact Or.inl gone
  · rw [if_neg yes] at gone
    exact Or.inl gone

theorem Coherent.admitWaiter (h : Coherent world) (admission : LaneAdmission κ) (inside : Bool) :
    Coherent (world.admitWaiter admission inside) := by
  obtain ⟨admitted, unknown⟩ := admit_admitted h.sound admission inside
  refine .of_sound (h.counted.newcomer admitted.sound.placed admitted.evolves admitted.admitted
    admitted.notRunning fun id up => ?_) admitted.sound
  cases turned : world.lanes.turnsAway (makeWaiter admission inside) inside with
  | some error =>
    simp only [turned] at up
    exact Or.inl up
  | none =>
    cases kind : admission.locks with
    | known list =>
      simp only [turned, kind] at up
      exact Or.inl up
    | lookup =>
      simp only [turned, kind, update_apply] at up
      split at up
      · rename_i same; subst same
        exact Or.inr ⟨rfl, unknown turned kind⟩
      · exact Or.inl up

theorem Coherent.lookupSucceeded (h : Coherent world) (pending : world.lookups id = true) (locks : List (LaneLock κ)) :
    Coherent { world with
      lanes := world.lanes.lookupSucceeded id locks
      lookups := update world.lookups id false } := by
  have unknown := (h.counted.each id (h.counted.below_of_lookup pending)).lookup pending
  unfold OperationLanes.lookupSucceeded
  split
  · exact ⟨h.counted.endLookup id, h.chronicled, h.quiescent⟩
  · have learned := h.counted.learn pending locks
    have granted := grant_granted learned.placed
    exact ⟨learned.lanes granted.placed granted.evolves granted.admitted,
      granted.chronicled (learn_chronicled h.counted.placed h.chronicled unknown locks),
      granted.quiescent⟩

theorem Coherent.finish (h : Coherent world) (goes : world.finished id < world.started id) : Coherent { world with
      lanes := world.lanes.release id
      finished := update world.finished id (world.finished id + 1) } := by
  obtain ⟨-, running⟩ := h.counted.below_of_running goes
  have active := (h.counted.placed.holds id).mp (Or.inr running)
  have released := release_active h.counted.placed active
  exact .of_sound ((h.counted.finish goes).lanes released.placed released.evolves
    released.admitted) (release_sound h.sound active)

theorem initial_coherent (options : OperationLanesOptions κ) :
    Coherent (initial options : LaneWorld κ) :=
  .of_sound ⟨(new_sound options).placed, fun _ _ => ⟨rfl, rfl, rfl, rfl, rfl⟩,
    fun _ below => absurd below (Nat.not_lt_zero _)⟩ (new_sound options)

/-- Every step keeps the world coherent. -/
theorem Coherent.step {world after : LaneWorld κ} (h : Coherent world) {call : LaneCall κ}
    (step : world.step call = some after) : Coherent after := by
  cases call with
  | admitTicket admission =>
    cases step
    exact h.admitWaiter admission false
  | runNested admission =>
    cases step
    exact h.admitWaiter admission true
  | cancel id | withdraw id =>
    simp only [LaneWorld.step] at step
    split at step
    · cases step
      exact h.cancel id
    · cases step
  | setPaused paused =>
    cases step
    obtain ⟨sound, steps⟩ := setPaused_sound h.sound paused
    exact .of_sound (h.counted.lanes sound.placed steps.evolves steps.admitted) sound
  | lookupSucceeded id locks =>
    simp only [LaneWorld.step] at step
    split at step
    · rename_i pending
      cases step
      exact h.lookupSucceeded pending locks
    · cases step
  | lookupFailed id cause =>
    simp only [LaneWorld.step] at step
    split at step
    · cases step
      obtain ⟨sound, steps⟩ := lookupFailed_sound h.sound id cause
      exact .of_sound ((h.counted.endLookup id).lanes sound.placed steps.evolves steps.admitted)
        sound
    · cases step
  | run id =>
    simp only [LaneWorld.step] at step
    split at step
    · rename_i below
      cases step
      exact ⟨h.counted.startAwaiting below, h.chronicled, h.quiescent⟩
    · cases step
  | resume id =>
    have counted := h.counted.resume step
    simp only [LaneWorld.step] at step
    split at step
    · split at step
      · cases step
        by_cases granted : (world.lanes.waiters id).state = .granted
        · have begun := (beginRun_begun h.counted.placed granted).2
          exact ⟨counted, begun.chronicled h.chronicled, begun.quiescent h.quiescent⟩
        · have stays : world.lanes.beginRun id = (false, world.lanes) := by
            rw [OperationLanes.beginRun, if_pos granted]
          simp only [stays, Bool.false_eq_true, if_false] at counted ⊢
          exact ⟨counted, h.chronicled, h.quiescent⟩
      · cases step
        exact ⟨counted, h.chronicled, h.quiescent⟩
    · cases step
  | interrupt id =>
    simp only [LaneWorld.step] at step
    split at step
    · cases step
      have stopped : Coherent { world with
          awaiting := update world.awaiting id (world.awaiting id - 1) } :=
        ⟨h.counted.stopAwaiting id, h.chronicled, h.quiescent⟩
      exact stopped.cancel id
    · cases step
  | finish id =>
    simp only [LaneWorld.step] at step
    split at step
    · rename_i goes
      cases step
      exact h.finish goes
    · cases step

variable {options : OperationLanesOptions κ}

theorem coherent_of_reachable (reached : (laneSystem options).Reachable world) : Coherent world :=
  reached.invariant (fun _ init => init ▸ initial_coherent options) fun _ _ _ coherent step => coherent.step step

/-! ## What is over stays over -/

/-- An admitted operation that is done and was never started. -/
def NeverRan (world : LaneWorld κ) (id : WaiterId) : Prop :=
  id < world.lanes.admitted ∧ (world.lanes.waiters id).state = .done ∧ world.started id = 0

theorem NeverRan.of_evolves (h : NeverRan world id) (evolves : Evolves world.lanes after.lanes)
    (started : after.started = world.started) :
    NeverRan after id :=
  ⟨h.1.trans_le evolves.1, (evolves.2 id h.1).done h.2.1, started ▸ h.2.2⟩

theorem NeverRan.step {world after : LaneWorld κ} {id : WaiterId} (h : NeverRan world id)
    (coherent : Coherent world) {call : LaneCall κ} (step : world.step call = some after) :
    NeverRan after id := by
  have before := h
  obtain ⟨below, done, unstarted⟩ := before
  cases call with
  | admitTicket admission =>
    cases step
    exact h.of_evolves (admit_admitted coherent.sound admission false).1.evolves rfl
  | runNested admission =>
    cases step
    exact h.of_evolves (admit_admitted coherent.sound admission true).1.evolves rfl
  | cancel other | withdraw other =>
    simp only [LaneWorld.step] at step
    split at step
    · cases step
      exact h.of_evolves (cancel_sound coherent.sound other).2.1 rfl
    · cases step
  | setPaused paused =>
    cases step
    exact h.of_evolves (setPaused_sound coherent.sound paused).2.evolves rfl
  | lookupSucceeded other locks =>
    simp only [LaneWorld.step] at step
    split at step
    · rename_i pending
      cases step
      have otherBelow := coherent.counted.below_of_lookup pending
      obtain ⟨-, admitted, waiters, fields, -, moves⟩ := lookupSucceeded_sound coherent.sound
        otherBelow ((coherent.counted.each other otherBelow).lookup pending) locks
      refine ⟨admitted ▸ below, (moves id below).done ?_, unstarted⟩
      rw [fields id]
      exact done
    · cases step
  | lookupFailed other cause =>
    simp only [LaneWorld.step] at step
    split at step
    · cases step
      exact h.of_evolves (lookupFailed_sound coherent.sound other cause).2.evolves rfl
    · cases step
  | run other =>
    simp only [LaneWorld.step] at step
    split at step
    · cases step
      exact h
    · cases step
  | resume other =>
    simp only [LaneWorld.step] at step
    split at step
    · split at step
      · cases step
        by_cases granted : (world.lanes.waiters other).state = .granted
        · obtain ⟨begins, begun⟩ := beginRun_begun coherent.counted.placed granted
          have different : id ≠ other := by
            rintro rfl
            simp [granted] at done
          simp only [begins, if_true]
          refine ⟨begun.admitted ▸ below, ?_, ?_⟩
          · simp only [begun.waiters, if_neg different, done]
          · simp only [update_of_ne different, unstarted]
        · have stays : world.lanes.beginRun other = (false, world.lanes) := by
            rw [OperationLanes.beginRun, if_pos granted]
          simp only [stays, Bool.false_eq_true, if_false]
          exact h
      · cases step
        exact h
    · cases step
  | interrupt other =>
    simp only [LaneWorld.step] at step
    split at step
    · cases step
      exact h.of_evolves (cancel_sound coherent.sound other).2.1 rfl
    · cases step
  | finish other =>
    simp only [LaneWorld.step] at step
    split at step
    · rename_i goes
      cases step
      obtain ⟨-, running⟩ := coherent.counted.below_of_running goes
      have different : id ≠ other := by
        rintro rfl
        simp [running] at done
      have released := release_active coherent.counted.placed
        ((coherent.counted.placed.holds other).mp (Or.inr running))
      refine ⟨released.admitted ▸ below, (released.evolves.2 id below).done ?_, unstarted⟩
      rw [letGo_waiters, if_neg different]
      exact done
    · cases step

theorem NeverRan.run {later : LaneWorld κ} (h : NeverRan world id)
    (reached : (laneSystem options).Reachable world) {calls : List (LaneCall κ)}
    (run : (laneSystem options).Run world calls later) :
    NeverRan later id :=
  run.relates (R := fun before after => NeverRan before id → NeverRan after id)
    (fun _ => coherent_of_reachable) (fun _ h => h)
    (fun _ _ _ _ coherent soFar step before => (soFar before).step coherent step) reached h

theorem TurnedAway.neverRan (reached : (laneSystem options).Reachable world)
    (below : id < world.lanes.admitted) (away : TurnedAway world id) : NeverRan world id := by
  have coherent := (coherent_of_reachable reached).counted.each id below
  rcases away with gone | answered
  · exact ⟨below, coherent.withdrawn gone⟩
  · exact ⟨below, coherent.answered answered⟩

/-! ## Mutual exclusion -/

/-- The locks of the operations that are active. -/
def heldLocks (world : LaneWorld κ) : List (List (LaneLock κ)) :=
  world.lanes.active.map world.lanes.locksOf

/-- In every reachable state the table is the sum of the active operations' locks, with one
    exclusive holder of a key at most; no two active operations conflict; an effect starts once
    at most, and never once it was turned away; and with nothing active the table is empty. -/
theorem lanes_exclusion (options : OperationLanesOptions κ) {world : LaneWorld κ}
    (reached : (laneSystem options).Reachable world) :
    (∀ key, exclusiveCount world.heldLocks key ≤ 1 ∧
      world.lanes.held.held.get key =
        entry (exclusiveCount world.heldLocks key) (sharedCount world.heldLocks key)) ∧
    (∀ a ∈ world.lanes.active, ∀ b ∈ world.lanes.active, a ≠ b →
      ¬ Conflict (world.lanes.locksOf a) (world.lanes.locksOf b)) ∧
    (∀ id, world.started id ≤ 1) ∧
    (∀ id < world.lanes.admitted, TurnedAway world id → ∀ calls later,
      (laneSystem options).Run world calls later → later.started id = 0) ∧
    (world.lanes.active = [] → world.lanes.held.held = .empty) := by
  have coherent := coherent_of_reachable reached
  have placed := coherent.sound.placed
  have sums : world.lanes.held.Sums world.heldLocks := by simpa [heldLocks] using placed.sums
  have apart : world.lanes.active.Pairwise fun a b =>
      ¬ Conflict (world.lanes.locksOf a) (world.lanes.locksOf b) := by simpa using placed.apart
  refine ⟨fun key => ⟨?_, sums key⟩, ?_, fun id => ?_, fun id below away calls later run => ?_,
    fun idle => ?_⟩
  · exact exclusiveCount_le_one (List.pairwise_map.mpr apart) key
  · have : Std.Symm fun a b : WaiterId =>
        ¬ Conflict (world.lanes.locksOf a) (world.lanes.locksOf b) :=
      ⟨fun _ _ apart clash => apart clash.symm⟩
    exact fun a first b second different => apart.forall first second different
  · by_cases below : id < world.lanes.admitted
    · exact (coherent.counted.each id below).once
    · rw [(coherent.counted.fresh id (not_lt.mp below)).2.2.1]
      exact Nat.zero_le 1
  · exact ((away.neverRan reached below).run reached run).2.2
  · refine OrderedMap.eq_empty fun key => ?_
    rw [sums key]
    simp [heldLocks, idle, tally, entry, exclusiveCount, sharedCount]

/-- One change runs, and another that waits for it is withdrawn. -/
def withdrawnBehindCalls : List (LaneCall String) :=
  [.admitTicket { label := "first", locks := .known [exclusive "app"] },
    .admitTicket { label := "second", locks := .known [shared "host", exclusive "app"] },
    .run 0, .resume 0, .withdraw 1]

def withdrawnBehind : LaneWorld String :=
  (runAll LaneWorld.step (initial {}) withdrawnBehindCalls).get (by decide)

theorem lanes_exclusion_withdrawnBehind :
    withdrawnBehind.lanes.active = [0] ∧ withdrawnBehind.started 0 = 1 ∧
      (∀ key, exclusiveCount withdrawnBehind.heldLocks key ≤ 1) ∧
      ∀ calls later, (laneSystem {}).Run withdrawnBehind calls later → later.started 1 = 0 := by
  have reached : (laneSystem {}).Reachable withdrawnBehind :=
    System.reachable_of_runAll (· = initial {}) LaneWorld.step rfl withdrawnBehindCalls (by decide)
  obtain ⟨table, -, -, never, -⟩ := lanes_exclusion {} reached
  exact ⟨by decide, by decide, fun key => (table key).1, never 1 (by decide) (Or.inl (by decide))⟩

end LaneWorld

end Kiln.Operations
