import Kiln.Operations.LanesGrant

/-!
# What each call keeps

Between calls the lanes are `Sound`: every waiter is in its place, the history is in order and
nothing waits that could start. Each call keeps that, and moves each waiter forward only.
-/

set_option linter.unusedSectionVars false

namespace Kiln.Operations
open Kiln.Lib List

namespace OperationLanes

variable {κ : Type} [LinearOrder κ]

/-- What holds of the lanes between two calls. -/
structure Sound (lanes : OperationLanes κ) : Prop where
  placed : Placed [] [] lanes
  chronicled : Chronicled lanes
  quiescent : Quiescent lanes

variable {lanes : OperationLanes κ}

theorem Quiescent.congr {lanes' : OperationLanes κ} (h : Quiescent lanes)
    (waiting : lanes'.waiting = lanes.waiting) (nested : lanes'.nested = lanes.nested)
    (active : lanes'.active = lanes.active)
    (locks : ∀ id ∈ lanes.waiting ++ (lanes.nested ++ lanes.active),
      (lanes'.waiters id).locks = (lanes.waiters id).locks) : Quiescent lanes' := by
  have own : ∀ id ∈ lanes.waiting ++ (lanes.nested ++ lanes.active), lanes'.locksOf id = lanes.locksOf id := by
    intro id member
    simp [locksOf, locks id member]
  constructor
  · intro id member list found
    rw [nested] at member
    rw [locks id (by simp [member])] at found
    obtain ⟨holder, holds, clash⟩ := h.nested id member list found
    exact ⟨holder, active ▸ holds, by rwa [own holder (by simp [holds])]⟩
  intro id member known
  rw [waiting] at member known ⊢
  rw [active, nested, own id (by simp [member])]
  refine (h.line id member fun ahead inLine le => ?_).imp ?_ ?_
  · rw [← locks ahead (by simp [inLine])]
    exact known ahead inLine le
  · rintro ⟨other, among, clash⟩
    refine ⟨other, among, ?_⟩
    rwa [own other (by simpa [or_comm] using Or.inr (mem_append.mp among))]
  · rintro ⟨ahead, inLine, less, clash⟩
    exact ⟨ahead, inLine, less, by rwa [own ahead (by simp [inLine])]⟩

theorem Sound.congr {lanes' : OperationLanes κ} (h : Sound lanes)
    (waiters : lanes'.waiters = lanes.waiters) (waiting : lanes'.waiting = lanes.waiting)
    (nested : lanes'.nested = lanes.nested) (active : lanes'.active = lanes.active)
    (held : lanes'.held = lanes.held) (admitted : lanes'.admitted = lanes.admitted)
    (history : lanes'.history = lanes.history) : Sound lanes' :=
  ⟨h.placed.congr waiters waiting nested active held admitted, h.chronicled.congr waiters history admitted,
    h.quiescent.congr waiting nested active fun _ _ => by rw [waiters]⟩

variable {before after : OperationLanes κ}

theorem Granted.sound (h : Granted before after) (chronicled : Chronicled before) : Sound after :=
  ⟨h.placed, h.chronicled chronicled, h.quiescent⟩

/-- The lanes some way into a call: nothing may have been granted since. -/
structure Steps (batch : List WaiterId) (before after : OperationLanes κ) : Prop where
  placed : Placed batch [] after
  chronicled : Chronicled before → Chronicled after
  evolves : Evolves before after
  admitted : after.admitted = before.admitted

variable {batch : List WaiterId}

theorem Steps.refl (placed : Placed batch [] lanes) : Steps batch lanes lanes :=
  ⟨placed, id, .refl lanes, rfl⟩

theorem Steps.trans {more : List WaiterId} {a b c : OperationLanes κ} (h : Steps batch a b)
    (k : Steps more b c) : Steps more a c :=
  ⟨k.placed, fun chronicled => k.chronicled (h.chronicled chronicled), h.evolves.trans k.evolves,
    k.admitted.trans h.admitted⟩

theorem Granted.steps (h : Granted before after) : Steps [] before after :=
  ⟨h.placed, h.chronicled, h.evolves, h.admitted⟩

/-- The operations that are not done, wherever they are. -/
def unfinished (lanes : OperationLanes κ) : List WaiterId :=
  lanes.active ++ (lanes.waiting ++ lanes.nested)

theorem Placed.mem_unfinished (placed : Placed [] [] lanes) (id : WaiterId) :
    id ∈ lanes.unfinished ↔ (lanes.waiters id).state ≠ .done := by
  have holds := placed.holds id
  have waits := placed.waits id
  simp only [not_mem_nil, or_false] at waits
  unfold unfinished
  rw [mem_append, mem_append, ← holds, ← waits]
  cases (lanes.waiters id).state <;> simp

theorem Placed.unfinished_nodup (placed : Placed [] [] lanes) :
    lanes.unfinished.Nodup := by
  have once := placed.once
  simp only [append_nil] at once
  refine nodup_append.mpr ⟨placed.activeOnce, once, fun a active b queued same => ?_⟩
  subst same
  have waiting := (placed.waits a).mpr (by simpa using queued)
  rcases (placed.holds a).mpr active with state | state <;> simp [waiting] at state

/-- No call but an admission adds to what is not done. -/
theorem Steps.unfinished_le (h : Steps [] before after) (placed : Placed [] [] before) :
    after.unfinished.length ≤ before.unfinished.length := by
  refine (subperm_of_subset h.placed.unfinished_nodup fun id member => ?_).length_le
  rw [h.placed.mem_unfinished] at member
  rw [placed.mem_unfinished]
  intro done
  have below : id < before.admitted := h.admitted ▸ h.placed.bound id member
  exact member ((h.evolves.2 id below).done done)

/-! ## Withdrawing what waits -/

/-- A waiter taken out of its queue and told why. -/
structure Withdrawn (batch : List WaiterId) (before : OperationLanes κ) (id : WaiterId)
    (after : OperationLanes κ) : Prop extends Steps batch before after where
  waiting : after.waiting = before.waiting.erase id
  nested : after.nested = before.nested.erase id
  active : after.active = before.active
  others : ∀ other ≠ id, after.waiters other = before.waiters other
  done : (after.waiters id).state = .done

variable {id : WaiterId}

theorem remove_conclude (placed : Placed batch [] lanes)
    (waiting : (lanes.waiters id).state = .waiting) (notChosen : id ∉ batch) (how : Settled) :
    Withdrawn batch lanes id ((lanes.remove id).conclude id how) := by
  have queued : id ∈ lanes.waiting ∨ id ∈ lanes.nested := by
    simpa [notChosen] using (placed.waits id).mp waiting
  have out := placed.remove queued
  have still : ((lanes.remove id).waiters id).state = .waiting := by simpa using waiting
  obtain ⟨line, inner⟩ := placed.queues_remove id
  refine ⟨⟨out.conclude how, fun c => ?_,
    (evolves_of_waiters (remove_waiters lanes id) (remove_admitted lanes id)).trans
      (evolves_conclude still how), remove_admitted lanes id⟩, line, inner,
    remove_active lanes id, fun other different => ?_, ?_⟩
  · have same := c.congr (remove_waiters lanes id) (remove_history lanes id) (remove_admitted lanes id)
    exact same.conclude out still how
  · rw [conclude_waiters, if_neg different, remove_waiters]
  · rw [conclude_waiters, if_pos rfl]

/-! ## Releasing what is active -/

theorem release_active (placed : Placed [] [] lanes) (active : id ∈ lanes.active) :
    Granted (lanes.letGo id) (lanes.release id) := by
  have holding := (placed.holds id).mpr active
  have notDone : (lanes.waiters id).state ≠ .done := by
    rcases holding with state | state <;> simp [state]
  rw [release, if_neg notDone]
  exact grant_granted (placed.letGo active)

theorem release_sound (sound : Sound lanes) (active : id ∈ lanes.active) :
    Sound (lanes.release id) :=
  (release_active sound.placed active).sound (sound.chronicled.letGo sound.placed active)

/-- A granted operation that is withdrawn before it starts moves on to its end. -/
theorem letGo_evolves (granted : (lanes.waiters id).state = .granted) :
    Evolves lanes (lanes.letGo id) := by
  refine ⟨le_rfl, fun other _ => ?_⟩
  rw [letGo_waiters]
  split
  · rename_i same; subst same
    exact ⟨⟨rfl, rfl, rfl, rfl, fun _ h => h⟩, fun h => h, .inr (.inr ⟨.inr granted, rfl⟩), by simp [granted]⟩
  · exact .refl _

/-! ## Cancelling -/

theorem cancel_sound (sound : Sound lanes) (id : WaiterId) :
    Sound (lanes.cancel id).2 ∧ Evolves lanes (lanes.cancel id).2 ∧ (lanes.cancel id).2.admitted = lanes.admitted ∧
      ((lanes.cancel id).1 = true → ((lanes.waiters id).state = .waiting ∨ (lanes.waiters id).state = .granted) ∧
          ((lanes.cancel id).2.waiters id).state = .done) := by
  unfold cancel
  cases state : (lanes.waiters id).state with
  | waiting =>
    have below : id < lanes.admitted := sound.placed.bound id (by simp [state])
    have out := remove_conclude sound.placed state not_mem_nil (.fail (withdrawnError (lanes.waiters id)))
    have granted := grant_granted out.placed
    exact ⟨granted.sound (out.chronicled sound.chronicled), out.evolves.trans granted.evolves,
      granted.admitted.trans out.admitted, fun _ => ⟨.inl rfl,
        (granted.evolves.2 id (out.admitted ▸ below)).done out.done⟩⟩
  | granted =>
    have below : id < lanes.admitted := sound.placed.bound id (by simp [state])
    have active := (sound.placed.holds id).mp (.inl state)
    have released := release_active sound.placed active
    refine ⟨release_sound sound active, (letGo_evolves state).trans released.evolves,
      released.admitted, fun _ => ⟨.inr rfl, (released.evolves.2 id below).done ?_⟩⟩
    rw [letGo_waiters, if_pos rfl]
  | running => exact ⟨sound, .refl _, rfl, by simp⟩
  | done => exact ⟨sound, .refl _, rfl, by simp⟩

/-! ## Pausing -/

theorem pauseAll_steps (placed : Placed batch [] lanes) {ids : List WaiterId} (once : ids.Nodup)
    (waiting : ∀ id ∈ ids, (lanes.waiters id).state = .waiting) (apart : ∀ id ∈ ids, id ∉ batch)
    (error : OperationLanes κ → WaiterId → LaneRejectedError) :
    Steps batch lanes (ids.foldl (fun lanes id => (lanes.remove id).reject id (error lanes id)) lanes) ∧
      ∀ id ∈ ids, ((ids.foldl (fun lanes id =>
        (lanes.remove id).reject id (error lanes id)) lanes).waiters id).state = .done := by
  induction ids generalizing lanes with
  | nil => exact ⟨.refl placed, by simp⟩
  | cons id ids ih =>
    rw [nodup_cons] at once
    have state := waiting id (by simp)
    have below : id < lanes.admitted := placed.bound id (by simp [state])
    have out := remove_conclude placed state (apart id (by simp)) (.fail (error lanes id))
    obtain ⟨steps, done⟩ := ih out.placed once.2 (fun other member => by
        rw [out.others other fun same => once.1 (same ▸ member)]
        exact waiting other (mem_cons_of_mem _ member))
      fun other member => apart other (mem_cons_of_mem _ member)
    refine ⟨out.toSteps.trans steps, fun other member => ?_⟩
    rcases mem_cons.mp member with rfl | member
    · exact (steps.evolves.2 other (out.admitted ▸ below)).done out.done
    · exact done other member

theorem mem_pauseWithdrawn (lanes : OperationLanes κ) (id : WaiterId) :
    id ∈ lanes.pauseWithdrawn ↔ (id ∈ lanes.waiting ∨ id ∈ lanes.nested ∧ (lanes.waiters id).continuation = true) ∧
        (lanes.waiters id).carriesOnWhilePaused = false := by
  simp only [pauseWithdrawn, mem_filter, mem_append, Bool.not_eq_true']

theorem pauseWaiting_steps (placed : Placed batch [] lanes) : Steps batch lanes lanes.pauseWaiting ∧
      ∀ id ∈ lanes.pauseWithdrawn, (lanes.pauseWaiting.waiters id).state = .done := by
  have once := placed.once
  rw [append_nil, ← append_assoc, nodup_append] at once
  have queued : ∀ id ∈ lanes.pauseWithdrawn, id ∈ lanes.waiting ++ lanes.nested := by
    intro id member
    rw [mem_pauseWithdrawn] at member
    exact mem_append.mpr (member.1.imp_right And.left)
  refine pauseAll_steps placed ?_ (fun id member => ?_) (fun id member chosen => ?_) _
  · refine Nodup.filter _ (once.1.sublist ?_)
    exact Sublist.append_left filter_sublist _
  · exact (placed.waits id).mpr ((mem_append.mp (queued id member)).imp_right Or.inl)
  · exact once.2.2 id (queued id member) id chosen rfl

/-- The refusal of an operation that is done. -/
def refuseDone (lanes : OperationLanes κ) (id : WaiterId) (refusal : LaneRejectedError) :
    OperationLanes κ :=
  lanes.update id fun waiter => { waiter with refusal := some refusal }

theorem refuseDone_waiters (lanes : OperationLanes κ) (id other : WaiterId)
    (refusal : LaneRejectedError) : (lanes.refuseDone id refusal).waiters other =
      { lanes.waiters other with
        refusal := if other = id then some refusal else (lanes.waiters other).refusal } := by
  rw [refuseDone, update_waiters]
  split
  · rename_i same; subst same; rfl
  · rfl

theorem refuseDone_placed (placed : Placed batch [] lanes) (done : (lanes.waiters id).state = .done)
    (refusal : LaneRejectedError) :
    Placed batch [] (lanes.refuseDone id refusal) := by
  have waiters := fun other => lanes.refuseDone_waiters id other refusal
  have locks : (lanes.refuseDone id refusal).locksOf = lanes.locksOf := by
    funext other; simp [locksOf, waiters]
  refine ⟨fun other => ?_, fun other => ?_, fun other => ?_, fun other => ?_, placed.once,
    placed.activeOnce, fun other => ?_, fun other => ?_, placed.inOrder, fun other => ?_,
    fun other => ?_, ?_, ?_, fun other waiting => ?_, fun other holding => ?_⟩
  · rw [waiters]; exact placed.bound other
  · rw [waiters]; exact placed.unknown other
  · rw [waiters]; exact placed.waits other
  · rw [waiters]; exact placed.holds other
  · rw [waiters]; exact placed.ordinary other
  · rw [waiters]; exact placed.inner other
  · rw [waiters]; exact placed.normalized other
  · rw [waiters]; exact placed.known other
  · rw [locks]; exact placed.sums
  · rw [locks]; exact placed.apart
  · rw [waiters] at waiting ⊢
    have different : other ≠ id := by rintro rfl; simp [done] at waiting
    rw [if_neg different]
    exact placed.pending other waiting
  · rw [waiters] at holding ⊢
    have different : other ≠ id := by rintro rfl; simp [done] at holding
    rw [if_neg different]
    exact placed.settled other holding

theorem refuseDone_chronicled (placed : Placed batch [] lanes) (chronicled : Chronicled lanes)
    (id : WaiterId) (refusal : LaneRejectedError) :
    Chronicled (lanes.refuseDone id refusal) := by
  have waiters := fun other => lanes.refuseDone_waiters id other refusal
  refine ⟨fun other => ?_, fun other => ?_, fun other => ?_, ?_⟩
  · rw [waiters]; exact chronicled.ended other
  · rw [waiters]; exact chronicled.known other
  · rw [waiters]; exact chronicled.granted other
  · refine chronicled.stillInOrder _ (fun other _ => ?_) placed.unknown
    rw [waiters]
    exact ⟨rfl, rfl, rfl, rfl, fun _ h => h⟩

/-- What a pause does with an operation that was granted and hasn't started. -/
theorem refuse_letGo (placed : Placed batch [] lanes)
    (granted : (lanes.waiters id).state = .granted) (refusal : LaneRejectedError) :
    Steps batch lanes ((lanes.update id fun waiter => { waiter with refusal := some refusal }).letGo id) := by
  have active := (placed.holds id).mp (.inl granted)
  -- Nobody asks for the refusal before it is done.
  have swap : (lanes.update id fun waiter => { waiter with refusal := some refusal }).letGo id =
      (lanes.letGo id).refuseDone id refusal := by
    simp [letGo, refuseDone, update, note, locksOf]
  have gone := placed.letGo active
  have done : ((lanes.letGo id).waiters id).state = .done := by rw [letGo_waiters, if_pos rfl]
  rw [swap]
  refine ⟨refuseDone_placed gone done refusal, fun chronicled =>
    refuseDone_chronicled gone (chronicled.letGo placed active) id refusal, ?_, rfl⟩
  refine ⟨le_rfl, fun other _ => ?_⟩
  rw [refuseDone_waiters, letGo_waiters]
  by_cases same : other = id
  · subst same
    simp only [if_true]
    exact ⟨⟨rfl, rfl, rfl, rfl, fun _ h => h⟩, fun h => h, .inr (.inr ⟨.inr granted, rfl⟩), by simp [granted]⟩
  · simp only [if_neg same]
    exact .refl _

theorem pauseKeeps_moves {before after : Waiter κ} (moves : Moves before after)
    (arrived : before.state ≠ .waiting) (keeps : pauseKeeps before = true) : pauseKeeps after = true := by
  have state := moves.state
  unfold pauseKeeps at keeps ⊢
  rw [moves.nested, moves.continuation, moves.carriesOn]
  grind

/-- The loop over `#active` comes to its end: what it passed by stays in front of what it still has to pass, and with
each release there is one operation less that isn't done. -/
theorem pauseActive_spec (fuel : Nat) (placed : Placed [] [] lanes) {front back : List WaiterId}
    (shape : lanes.active = front ++ back)
    (passed : ∀ id ∈ front, pauseKeeps (lanes.waiters id) = true)
    (enough : lanes.unfinished.length < fuel + front.length) :
    Steps [] lanes (pauseActive fuel front.length lanes) ∧ ∀ id ∈ (pauseActive fuel front.length lanes).active,
        pauseKeeps ((pauseActive fuel front.length lanes).waiters id) = true := by
  induction fuel generalizing lanes front back with
  | zero =>
    exfalso
    have := congrArg List.length shape
    simp only [unfinished, length_append] at enough this
    omega
  | succ fuel ih =>
    unfold pauseActive
    rw [shape, getElem?_append_right le_rfl, Nat.sub_self]
    cases back with
    | nil =>
      refine ⟨.refl placed, fun id member => passed id ?_⟩
      rw [append_nil] at shape
      exact shape ▸ member
    | cons id back =>
      simp only [getElem?_cons_zero]
      split
      · rename_i keeps
        have next : lanes.active = (front ++ [id]) ++ back := by simp [shape]
        have length : (front ++ [id]).length = front.length + 1 := by simp
        have := ih placed next (fun other member => ?_) (by omega)
        · rwa [length] at this
        · rcases mem_append.mp member with member | member
          · exact passed other member
          · exact mem_singleton.mp member ▸ keeps
      rename_i stops
      have active : id ∈ lanes.active := by simp [shape]
      have granted : (lanes.waiters id).state = .granted := by
        simp only [pauseKeeps, Bool.or_eq_true, decide_eq_true_eq, not_or, not_not] at stops
        exact stops.2
      generalize lanes.pausedError (lanes.waiters id) = refusal
      have left := refuse_letGo placed granted refusal
      have regrant := grant_granted left.placed
      have released : (lanes.update id fun waiter =>
          { waiter with refusal := some refusal }).release id =
          ((lanes.update id fun waiter =>
            { waiter with refusal := some refusal }).letGo id).grant := by
        simp [release, granted]
      rw [released]
      have notInFront : id ∉ front := by
        have once := placed.activeOnce
        rw [shape] at once
        exact fun member => (nodup_append.mp once).2.2 id member id (by simp) rfl
      have gone : ((lanes.update id fun waiter =>
          { waiter with refusal := some refusal }).letGo id).active = front ++ back := by
        show lanes.active.erase id = front ++ back
        rw [shape, erase_append_right _ notInFront, erase_cons_head]
      have fewer : ((lanes.update id fun waiter =>
          { waiter with refusal := some refusal }).letGo id).unfinished.length <
          lanes.unfinished.length := by
        have here := congrArg List.length shape
        have there := congrArg List.length gone
        simp only [length_append, length_cons, unfinished] at here there ⊢
        rw [there, here]
        show _ + (lanes.waiting.length + lanes.nested.length) < _
        omega
      have moved := left.trans regrant.steps
      obtain ⟨added, longer⟩ := regrant.held
      rw [gone, append_assoc] at longer
      have final := ih regrant.placed longer.symm (fun other member => ?_) ?_
      · exact ⟨moved.trans final.1, final.2⟩
      · have holding := (placed.holds other).mpr (by simp [shape, member])
        have below : other < lanes.admitted := placed.bound other (by
          rcases holding with state | state <;> simp [state])
        refine pauseKeeps_moves (moved.evolves.2 other below) ?_ (passed other member)
        rcases holding with state | state <;> simp [state]
      · have := regrant.steps.unfinished_le left.placed
        omega

theorem setPaused_sound (sound : Sound lanes) (paused : Bool) :
    Sound (lanes.setPaused paused) ∧ Steps [] lanes (lanes.setPaused paused) := by
  have placed : Placed [] [] { lanes with paused := paused } :=
    sound.placed.congr rfl rfl rfl rfl rfl rfl
  have chronicled : Chronicled lanes → Chronicled { lanes with paused := paused } :=
    fun c => c.congr rfl rfl rfl
  have first : Steps [] lanes { lanes with paused := paused } :=
    ⟨placed, chronicled, evolves_of_waiters rfl rfl, rfl⟩
  unfold setPaused
  cases paused with
  | false => exact ⟨sound.congr rfl rfl rfl rfl rfl rfl rfl, first⟩
  | true =>
    obtain ⟨withdrawn, _⟩ := pauseWaiting_steps placed
    have enough : (pauseWaiting { lanes with paused := true }).unfinished.length <
        (pauseWaiting { lanes with paused := true }).pauseFuel + 0 := by
      simp only [unfinished, pauseFuel, length_append]
      omega
    obtain ⟨released, _⟩ := pauseActive_spec _ withdrawn.placed (nil_append _).symm (by simp) enough
    have granted := grant_granted released.placed
    have steps := first.trans (withdrawn.trans (released.trans granted.steps))
    exact ⟨granted.sound ((first.trans (withdrawn.trans released)).chronicled sound.chronicled), steps⟩

/-! ## Admitting -/

/-- A waiter as `#admit` makes it. -/
structure New (waiter : Waiter κ) : Prop where
  state : waiter.state = .waiting
  locks : waiter.locks = none
  granted : waiter.granted = none
  refusal : waiter.refusal = none

theorem makeWaiter_new (admission : LaneAdmission κ) (inside : Bool) :
    New (makeWaiter admission inside) :=
  ⟨rfl, rfl, rfl, rfl⟩

theorem alloc_waiters (lanes : OperationLanes κ) (waiter : Waiter κ) (id : WaiterId) : (lanes.alloc waiter).waiters id =
      if id = lanes.admitted then waiter else lanes.waiters id := by
  simp only [alloc, Function.update_apply]

theorem evolves_alloc (lanes : OperationLanes κ) (waiter : Waiter κ) :
    Evolves lanes (lanes.alloc waiter) := by
  refine ⟨Nat.le_succ _, fun id below => ?_⟩
  rw [alloc_waiters, if_neg (ne_of_lt below)]
  exact .refl _

/-- The number of the next waiter is nowhere yet. -/
theorem Placed.not_admitted (placed : Placed batch [] lanes) : lanes.admitted ∉ lanes.active ∧
      lanes.admitted ∉ lanes.waiting ∧ lanes.admitted ∉ lanes.nested ∧ lanes.admitted ∉ batch := by
  have done : (lanes.waiters lanes.admitted).state = .done := by
    by_contra state
    exact lt_irrefl _ (placed.bound _ state)
  have notWaiting := mt (placed.waits lanes.admitted).mpr (by simp [done])
  have notActive := mt (placed.holds lanes.admitted).mpr (by simp [done])
  tauto

variable {waiter : Waiter κ}

theorem alloc_locks (placed : Placed batch [] lanes) (new : New waiter) (id : WaiterId) :
    ((lanes.alloc waiter).waiters id).locks = (lanes.waiters id).locks := by
  rw [alloc_waiters]
  split
  · rename_i same; subst same
    rw [new.locks, placed.unknown _ le_rfl]
  · rfl

theorem alloc_placed (placed : Placed batch [] lanes) (new : New waiter) :
    Placed batch [lanes.admitted] (lanes.alloc waiter) := by
  have absent := placed.not_admitted
  have locks : (lanes.alloc waiter).locksOf = lanes.locksOf := by
    funext id; simp [locksOf, alloc_locks placed new]
  have once := placed.once
  simp only [append_nil] at once
  refine ⟨fun id => ?_, fun id above => ?_, fun id => ?_, fun id => ?_, ?_, placed.activeOnce,
    fun id member => ?_, fun id member => ?_, placed.inOrder, fun id list => ?_,
    fun id member => ?_, ?_, ?_, fun id => ?_, fun id => ?_⟩
  · rw [alloc_waiters]
    split
    · rename_i same; subst same
      exact fun _ => Nat.lt_succ_self _
    · exact fun state => (placed.bound id state).trans (Nat.lt_succ_self _)
  · rw [alloc_locks placed new]
    exact placed.unknown id ((Nat.le_succ _).trans above)
  · rw [alloc_waiters]
    by_cases same : id = lanes.admitted
    · subst same; simp [new.state]
    · rw [if_neg same, placed.waits id]
      simp [alloc, same]
  · rw [alloc_waiters]
    by_cases same : id = lanes.admitted
    · subst same
      simp only [if_true, new.state, reduceCtorEq, or_self, false_iff]
      exact absent.1
    · rw [if_neg same]
      exact placed.holds id
  · show (lanes.waiting ++ (lanes.nested ++ (batch ++ [lanes.admitted]))).Nodup
    rw [← append_assoc lanes.nested, ← append_assoc]
    refine nodup_append.mpr ⟨once, nodup_singleton _, fun a queued b here same => ?_⟩
    obtain rfl := mem_singleton.mp here
    subst same
    simp only [mem_append] at queued
    tauto
  · have different : id ≠ lanes.admitted := fun same => absent.2.1 (same ▸ member)
    rw [alloc_waiters, if_neg different]
    exact placed.ordinary id member
  · have different : id ≠ lanes.admitted := fun same => absent.2.2.1 (same ▸ member)
    rw [alloc_waiters, if_neg different]
    exact placed.inner id member
  · rw [alloc_locks placed new]
    exact placed.normalized id list
  · rw [alloc_locks placed new]
    exact placed.known id member
  · rw [locks]; exact placed.sums
  · rw [locks]; exact placed.apart
  · rw [alloc_waiters]
    split
    · exact fun _ => ⟨new.granted, new.refusal⟩
    · exact placed.pending id
  · rw [alloc_waiters]
    split
    · simp [new.state]
    · exact placed.settled id

theorem alloc_chronicled (placed : Placed batch [] lanes) (new : New waiter) (chronicled : Chronicled lanes) :
    Chronicled (lanes.alloc waiter) := by
  refine ⟨fun id => ?_, fun id => ?_, fun id holding => ?_, ?_⟩
  · show LaneEvent.ended id ∈ lanes.history ↔ id < lanes.admitted + 1 ∧ _
    rw [chronicled.ended, alloc_waiters, Nat.lt_succ_iff_lt_or_eq]
    by_cases same : id = lanes.admitted
    · subst same; simp [new.state]
    · simp [same]
  · show LaneEvent.known id ∈ lanes.history ↔ _
    rw [chronicled.known, alloc_locks placed new]
  · rw [alloc_waiters] at holding
    split at holding
    · simp [new.state] at holding
    · exact chronicled.granted id holding
  · exact chronicled.stillInOrder _ (fun id below => ((evolves_alloc lanes waiter).2 id below).toKeeps) placed.unknown

/-- Putting a new waiter at the end of its queue. -/
theorem push_placed (placed : Placed batch [id] lanes) (last : ∀ other ∈ lanes.waiting, other < id) :
    Placed batch [] (lanes.push id) := by
  have once := placed.once
  unfold push
  cases kind : (lanes.waiters id).nested with
  | true =>
    simp only [if_true]
    refine ⟨placed.bound, placed.unknown, fun other => ?_, placed.holds, ?_, placed.activeOnce,
      placed.ordinary, fun other member => ?_, placed.inOrder, placed.normalized, placed.known,
      placed.sums, placed.apart, placed.pending, placed.settled⟩
    · refine (placed.waits other).trans ?_
      simp only [mem_append, mem_singleton, not_mem_nil, or_false]
      tauto
    · have swap : (lanes.waiting ++ (lanes.nested ++ [id] ++ (batch ++ []))).Perm
          (lanes.waiting ++ (lanes.nested ++ (batch ++ [id]))) := by
        simp only [append_nil, append_assoc]
        exact ((perm_append_comm).append_left _).append_left _
      exact swap.nodup_iff.mpr once
    · rcases mem_append.mp member with member | member
      · exact placed.inner other member
      · exact mem_singleton.mp member ▸ kind
  | false =>
    simp only [Bool.false_eq_true, if_false]
    refine ⟨placed.bound, placed.unknown, fun other => ?_, placed.holds, ?_, placed.activeOnce,
      fun other member => ?_, placed.inner, ?_, placed.normalized, placed.known,
      placed.sums, placed.apart, placed.pending, placed.settled⟩
    · refine (placed.waits other).trans ?_
      simp only [mem_append, mem_singleton, not_mem_nil, or_false]
      tauto
    · have swap : (lanes.waiting ++ [id] ++ (lanes.nested ++ (batch ++ []))).Perm
          (lanes.waiting ++ (lanes.nested ++ (batch ++ [id]))) := by
        refine perm_iff_count.mpr fun other => ?_
        simp only [count_append, count_nil]
        omega
      exact swap.nodup_iff.mpr once
    · rcases mem_append.mp member with member | member
      · exact placed.ordinary other member
      · exact mem_singleton.mp member ▸ kind
    · refine pairwise_append.mpr ⟨placed.inOrder, pairwise_singleton _ _, ?_⟩
      intro other member another here
      exact mem_singleton.mp here ▸ last other member

theorem push_chronicled (chronicled : Chronicled lanes) (id : WaiterId) :
    Chronicled (lanes.push id) := by
  unfold push
  split <;> exact chronicled.congr rfl rfl rfl

theorem push_waiters (lanes : OperationLanes κ) (id : WaiterId) :
    (lanes.push id).waiters = lanes.waiters ∧ (lanes.push id).admitted = lanes.admitted ∧
      (lanes.push id).active = lanes.active := by
  unfold push
  split <;> exact ⟨rfl, rfl, rfl⟩

theorem learn_waiters (lanes : OperationLanes κ) (id other : WaiterId)
    (locks : List (LaneLock κ)) : (lanes.learn id locks).waiters other =
      if other = id then { lanes.waiters id with locks := some (normalizeLocks locks) }
      else lanes.waiters other := by
  simp only [learn, note, update_waiters]

theorem learn_placed {dropped : List WaiterId} (placed : Placed batch dropped lanes)
    (below : id < lanes.admitted) (unknown : (lanes.waiters id).locks = none)
    (locks : List (LaneLock κ)) :
    Placed batch dropped (lanes.learn id locks) := by
  have notHolding : ∀ other ∈ lanes.active ++ batch, other ≠ id := by
    rintro other member rfl
    have := placed.known other member
    simp [unknown] at this
  have others : ∀ other ∈ lanes.active ++ batch, (lanes.learn id locks).locksOf other = lanes.locksOf other := by
    intro other member
    simp [locksOf, learn_waiters, notHolding other member]
  refine ⟨fun other => ?_, fun other above => ?_, fun other => ?_, fun other => ?_, placed.once,
    placed.activeOnce, fun other => ?_, fun other => ?_, placed.inOrder, fun other list => ?_,
    fun other member => ?_, ?_, ?_, fun other => ?_, fun other => ?_⟩
  · rw [learn_waiters]
    split
    · rename_i same; subst same; exact placed.bound other
    · exact placed.bound other
  · rw [learn_waiters, if_neg (ne_of_gt (below.trans_le above))]
    exact placed.unknown other above
  · rw [learn_waiters]
    split
    · rename_i same; subst same; exact placed.waits other
    · exact placed.waits other
  · rw [learn_waiters]
    split
    · rename_i same; subst same; exact placed.holds other
    · exact placed.holds other
  · rw [learn_waiters]
    split
    · rename_i same; subst same; exact placed.ordinary other
    · exact placed.ordinary other
  · rw [learn_waiters]
    split
    · rename_i same; subst same; exact placed.inner other
    · exact placed.inner other
  · rw [learn_waiters]
    split
    · rintro ⟨⟩
      exact normalizeLocks_oneLockPerKey locks
    · exact placed.normalized other list
  · rw [learn_waiters, if_neg (notHolding other member)]
    exact placed.known other member
  · show lanes.held.Sums ((lanes.active ++ batch).map (lanes.learn id locks).locksOf)
    rw [map_congr_left others]
    exact placed.sums
  · show (lanes.active ++ batch).Pairwise _
    refine placed.apart.imp_of_mem fun first second apart => ?_
    rw [others _ first, others _ second]
    exact apart
  · rw [learn_waiters]
    split
    · rename_i same; subst same; exact placed.pending other
    · exact placed.pending other
  · rw [learn_waiters]
    split
    · rename_i same; subst same; exact placed.settled other
    · exact placed.settled other

theorem learn_chronicled {dropped : List WaiterId} (placed : Placed batch dropped lanes)
    (chronicled : Chronicled lanes) (unknown : (lanes.waiters id).locks = none)
    (locks : List (LaneLock κ)) :
    Chronicled (lanes.learn id locks) := by
  refine ⟨fun other => ?_, fun other => ?_, fun other holding => ?_, ?_⟩
  · show LaneEvent.ended other ∈ .known id :: lanes.history ↔ other < lanes.admitted ∧ _
    rw [learn_waiters, mem_cons, chronicled.ended]
    by_cases same : other = id
    · subst same; simp
    · simp [same]
  · show LaneEvent.known other ∈ .known id :: lanes.history ↔ _
    rw [learn_waiters, mem_cons, chronicled.known]
    by_cases same : other = id
    · subst same; simp
    · simp [same]
  · rw [learn_waiters] at holding
    refine mem_cons_of_mem _ (chronicled.granted other ?_)
    by_cases same : other = id
    · subst same; simpa using holding
    · rwa [if_neg same] at holding
  · refine chronicled.stillInOrder _ (fun other _ => ?_) placed.unknown
    rw [learn_waiters]
    split
    · rename_i same; subst same
      exact ⟨rfl, rfl, rfl, rfl, by simp [unknown]⟩
    · exact (Moves.refl _).toKeeps

/-- A new waiter in line, with the locks it was admitted with. -/
structure Enqueued (batch : List WaiterId) (before : OperationLanes κ) (waiter : Waiter κ)
    (locks : AdmissionLocks κ) (after : OperationLanes κ) : Prop where
  placed : Placed batch [] after
  chronicled : Chronicled before → Chronicled after
  evolves : Evolves before after
  admitted : after.admitted = before.admitted + 1
  waiting : after.waiting = if waiter.nested then before.waiting
    else before.waiting ++ [before.admitted]
  nested : after.nested = if waiter.nested then before.nested ++ [before.admitted]
    else before.nested
  active : after.active = before.active
  others : ∀ other ≠ before.admitted, after.waiters other = before.waiters other
  own : after.waiters before.admitted = { waiter with
    locks := match locks with
      | .known list => some (normalizeLocks list)
      | .lookup => none }

theorem enqueue_enqueued (placed : Placed batch [] lanes) (new : New waiter) (locks : AdmissionLocks κ) :
    Enqueued batch lanes waiter locks ((lanes.alloc waiter).enqueue lanes.admitted locks) := by
  have fresh := alloc_placed placed new
  have last : ∀ other ∈ (lanes.alloc waiter).waiting, other < lanes.admitted := by
    intro other member
    exact placed.bound other (by simp [(placed.waits other).mpr (.inl member)])
  have pushed := push_placed fresh last
  obtain ⟨waiters, admitted, active⟩ := (lanes.alloc waiter).push_waiters lanes.admitted
  have own : (lanes.alloc waiter).waiters lanes.admitted = waiter := by
    rw [alloc_waiters, if_pos rfl]
  have waiting : ((lanes.alloc waiter).push lanes.admitted).waiting =
      if waiter.nested then lanes.waiting else lanes.waiting ++ [lanes.admitted] := by
    unfold push
    rw [own]
    cases waiter.nested <;> rfl
  have nested : ((lanes.alloc waiter).push lanes.admitted).nested =
      if waiter.nested then lanes.nested ++ [lanes.admitted] else lanes.nested := by
    unfold push
    rw [own]
    cases waiter.nested <;> rfl
  have others : ∀ other ≠ lanes.admitted, (lanes.alloc waiter).waiters other = lanes.waiters other := by
    intro other different
    rw [alloc_waiters, if_neg different]
  cases locks with
  | lookup =>
    refine ⟨pushed, fun c => push_chronicled (alloc_chronicled placed new c) _,
      (evolves_alloc lanes waiter).trans (evolves_of_waiters waiters admitted), admitted, waiting,
      nested, active, fun other different => ?_, ?_⟩
    · show ((lanes.alloc waiter).push lanes.admitted).waiters other = _
      rw [waiters, others other different]
    · show ((lanes.alloc waiter).push lanes.admitted).waiters _ = _
      rw [waiters, own, ← new.locks]
  | known list =>
    have unknown : (((lanes.alloc waiter).push lanes.admitted).waiters lanes.admitted).locks =
        none := by rw [waiters, own, new.locks]
    have below : lanes.admitted < ((lanes.alloc waiter).push lanes.admitted).admitted := by
      rw [admitted]; exact Nat.lt_succ_self _
    have others' : ∀ other ≠ lanes.admitted,
        (((lanes.alloc waiter).push lanes.admitted).learn lanes.admitted list).waiters other = lanes.waiters other := by
      intro other different
      rw [learn_waiters, if_neg different, waiters, others other different]
    refine ⟨learn_placed pushed below unknown list, fun c => ?_, ⟨?_, fun other less => ?_⟩,
      admitted, waiting, nested, active, others', ?_⟩
    · exact learn_chronicled pushed (push_chronicled (alloc_chronicled placed new c) _) unknown list
    · exact (Nat.le_succ _).trans admitted.ge
    · show Moves _ ((((lanes.alloc waiter).push lanes.admitted).learn _ list).waiters other)
      rw [others' other (ne_of_lt less)]
      exact .refl _
    · show (((lanes.alloc waiter).push lanes.admitted).learn _ list).waiters _ = _
      rw [learn_waiters, if_pos rfl, waiters, own]

/-! ## Granting where nothing can start -/

/-- The loop over the nested queue passes by what waits for a lock that is held. -/
theorem grantNested_busy (placed : Placed [] [] lanes)
    {rest : List WaiterId} (busy : ∀ id ∈ rest, ∀ locks, (lanes.waiters id).locks = some locks →
      ∃ holder ∈ lanes.active, Conflict (lanes.locksOf holder) locks)
    {blocked : LockTable κ} {wanted : List (List (LaneLock κ))} (sums : blocked.Sums wanted) :
    (lanes.grantNested blocked rest).1 = lanes ∧ ∃ more, (lanes.grantNested blocked rest).2.Sums more ∧
        ∀ locks, locks ∈ wanted ∨ (∃ id ∈ rest, lanes.locksOf id = locks) → locks ∈ more := by
  induction rest generalizing blocked wanted with
  | nil => exact ⟨rfl, wanted, sums, by simp⟩
  | cons id rest ih =>
    have busyRest := fun other member => busy other (mem_cons_of_mem _ member)
    unfold grantNested
    cases found : (lanes.waiters id).locks with
    | none =>
      have own : lanes.locksOf id = [] := by simp [locksOf, found]
      have once : OneLockPerKey ([] : List (LaneLock κ)) := nodup_nil
      obtain ⟨same, more, moreSums, covers⟩ := ih busyRest (sums.take once)
      refine ⟨same, more, moreSums, fun locks how => covers locks ?_⟩
      rcases how with how | ⟨other, member, rfl⟩
      · exact .inl (mem_cons_of_mem _ how)
      · rcases mem_cons.mp member with rfl | member
        · exact .inl (by simp [own])
        · exact .inr ⟨other, member, rfl⟩
    | some list =>
      have own : lanes.locksOf id = list := by simp [locksOf, found]
      obtain ⟨holder, holds, a, ha, b, hb, clash⟩ := busy id (by simp) list found
      have hit : list.any lanes.held.conflicts = true := by
        refine any_eq_true.mpr ⟨b, hb, (placed.sums.conflicts_iff b).mpr ?_⟩
        exact ⟨_, mem_map_of_mem (by simpa using holds), a, ha, clash⟩
      dsimp only
      rw [if_pos hit]
      obtain ⟨same, more, moreSums, covers⟩ :=
        ih busyRest (sums.take (placed.normalized id list found))
      refine ⟨same, more, moreSums, fun locks how => covers locks ?_⟩
      rcases how with how | ⟨other, member, rfl⟩
      · exact .inl (mem_cons_of_mem _ how)
      · rcases mem_cons.mp member with rfl | member
        · exact .inl (by simp [own])
        · exact .inr ⟨other, member, rfl⟩

/-- What stands in the way of each operation in the line, as `selectGrants` meets it. -/
theorem Quiescent.stuck (placed : Placed [] [] lanes) (quiescent : Quiescent lanes)
    {wanted : List (List (LaneLock κ))} (covers : ∀ other ∈ lanes.nested, lanes.locksOf other ∈ wanted)
    {front back : List WaiterId} {id : WaiterId} (shape : lanes.waiting = front ++ id :: back)
    (known : ∀ ahead ∈ front ++ [id], ∃ locks, (lanes.waiters ahead).locks = some locks) :
    (∃ other ∈ lanes.active.map lanes.locksOf ++ wanted, Conflict other (lanes.locksOf id)) ∨
      ∃ ahead ∈ front, Conflict (lanes.locksOf ahead) (lanes.locksOf id) := by
  have sorted := placed.inOrder
  have ahead_iff : ∀ ahead ∈ lanes.waiting, ahead ≤ id → ahead ∈ front ++ [id] := by
    intro ahead member le
    rw [shape] at member sorted
    rcases mem_append.mp member with member | member
    · simp [member]
    · rcases mem_cons.mp member with rfl | member
      · simp
      · have := (pairwise_cons.mp (pairwise_append.mp sorted).2.1).1 ahead member
        exact absurd this (not_lt.mpr le)
  rcases quiescent.line id (by simp [shape]) fun ahead member le =>
      Option.isSome_iff_exists.mpr (known ahead (ahead_iff ahead member le)) with
    ⟨other, among, clash⟩ | ⟨ahead, member, less, clash⟩
  · refine Or.inl ⟨lanes.locksOf other, ?_, clash⟩
    rcases mem_append.mp among with active | nested
    · exact mem_append_left _ (mem_map_of_mem active)
    · exact mem_append_right _ (covers other nested)
  · refine Or.inr ⟨ahead, ?_, clash⟩
    rcases mem_append.mp (ahead_iff ahead member less.le) with inFront | here
    · exact inFront
    · exact absurd (mem_singleton.mp here ▸ less) (lt_irrefl _)

/-- `#grant` changes nothing where nothing that waits could start. -/
theorem grant_quiescent (placed : Placed [] [] lanes) (quiescent : Quiescent lanes) : lanes.grant = lanes := by
  obtain ⟨same, wanted, sums, covers⟩ :=
    grantNested_busy placed quiescent.nested LockTable.sums_empty
  unfold grant
  dsimp only
  rw [same]
  have stays : lanes.select (lanes.grantNested .empty lanes.nested).2 = ⟨[], [], lanes.held, lanes⟩ := by
    have held : lanes.held.Sums (lanes.active.map lanes.locksOf) := by simpa using placed.sums
    unfold select
    rw [← append_nil lanes.waiting]
    rcases selectGrants_behind placed.normalized held sums lanes (fun front id back shape =>
        quiescent.stuck placed (fun other member => covers _ (.inr ⟨other, member, rfl⟩)) shape) [] with
      stays | ⟨_, stays⟩
    · exact stays
    · exact stays
  rw [stays]
  rfl

theorem grantNested_append (lanes : OperationLanes κ) (blocked : LockTable κ)
    (first second : List WaiterId) : lanes.grantNested blocked (first ++ second) =
      (lanes.grantNested blocked first).1.grantNested (lanes.grantNested blocked first).2 second := by
  induction first generalizing lanes blocked with
  | nil => rfl
  | cons id first ih =>
    simp only [cons_append, grantNested]
    split
    · exact ih _ _
    · split
      · exact ih _ _
      · exact ih _ _

theorem grant_newcomer (placed : Placed [] [] lanes) {earlier : List WaiterId} (queue : lanes.nested = earlier ++ [id])
    (busy : ∀ other ∈ earlier, ∀ locks, (lanes.waiters other).locks = some locks →
      ∃ holder ∈ lanes.active, Conflict (lanes.locksOf holder) locks)
    {locks : List (LaneLock κ)} (found : (lanes.waiters id).locks = some locks)
    (free : ∀ holder ∈ lanes.active, ¬ Conflict (lanes.locksOf holder) locks) :
    (lanes.grant.waiters id).state ≠ .waiting := by
  have below : id < lanes.admitted := placed.bound id (by
    simp [(placed.waits id).mpr (.inr (.inl (by simp [queue])))])
  obtain ⟨same, _, _, _⟩ := grantNested_busy placed busy LockTable.sums_empty
  have unheld : ∀ lock ∈ locks, lanes.held.conflicts lock = false := by
    rw [placed.sums.free_iff]
    intro others among
    obtain ⟨holder, active, rfl⟩ := mem_map.mp among
    exact free holder (by simpa using active)
  have clear : ¬ locks.any lanes.held.conflicts = true := by
    rw [any_eq_true]
    rintro ⟨lock, member, hit⟩
    simp [unheld lock member] at hit
  have turn : (lanes.grantNested .empty lanes.nested).1 = lanes.grantFreeNested id locks := by
    rw [queue, grantNested_append, same]
    unfold grantNested
    simp only [found]
    rw [if_neg clear]
    rfl
  have left : ((lanes.grantFreeNested id locks).waiters id).state ≠ .waiting := by
    rcases (grantFreeNested_freed placed (by simp [queue]) found unheld).left with state | state <;>
      simp [state]
  have pass := (NestedPass.start placed).run (nodup_append.mp (nodup_append.mp placed.once).2.1).1
  obtain ⟨wanted, sums, _⟩ := pass.wanted
  have selected := finishSelection_selected pass.placed _ sums
  refine (selected.evolves.2 id (pass.admitted ▸ below)).arrived ?_
  rw [turn]
  exact left

theorem Enqueued.quiescent {locks : AdmissionLocks κ} (h : Enqueued [] before waiter locks after)
    (placed : Placed [] [] before) (quiescent : Quiescent before) (nested : waiter.nested = true)
    (busy : ∀ list, (after.waiters before.admitted).locks = some list →
      ∃ holder ∈ after.active, Conflict (after.locksOf holder) list) : Quiescent after := by
  have absent := placed.not_admitted
  have waiting := h.waiting
  have queue := h.nested
  rw [if_pos nested] at waiting queue
  have own : ∀ other, other ≠ before.admitted → after.locksOf other = before.locksOf other := by
    intro other different
    simp [locksOf, h.others other different]
  have notActive : ∀ other ∈ before.active, other ≠ before.admitted := by
    rintro other member rfl
    exact absent.1 member
  have notWaiting : ∀ other ∈ before.waiting, other ≠ before.admitted := by
    rintro other member rfl
    exact absent.2.1 member
  have notNested : ∀ other ∈ before.nested, other ≠ before.admitted := by
    rintro other member rfl
    exact absent.2.2.1 member
  constructor
  · intro id member list found
    rw [queue] at member
    rcases mem_append.mp member with member | member
    · rw [h.others id (notNested id member)] at found
      obtain ⟨holder, active, clash⟩ := quiescent.nested id member list found
      exact ⟨holder, h.active ▸ active, by rwa [own holder (notActive holder active)]⟩
    · obtain rfl := mem_singleton.mp member
      exact busy list found
  intro id member known
  rw [waiting] at member known ⊢
  rw [h.active, queue, own id (notWaiting id member)]
  refine (quiescent.line id member fun ahead inLine le => ?_).imp ?_ ?_
  · rw [← h.others ahead (notWaiting ahead inLine)]
    exact known ahead inLine le
  · rintro ⟨other, among, clash⟩
    have different : other ≠ before.admitted :=
      (mem_append.mp among).elim (notActive other) (notNested other)
    refine ⟨other, ?_, by rwa [own other different]⟩
    rw [← append_assoc]
    exact mem_append_left _ among
  · rintro ⟨ahead, inLine, less, clash⟩
    exact ⟨ahead, inLine, less, by rwa [own ahead (notWaiting ahead inLine)]⟩

theorem refuseBusy_withdrawn (placed : Placed batch [] lanes)
    (waiting : (lanes.waiters id).state = .waiting) (notChosen : id ∉ batch) (asked : Nat)
    (inTheWay : List (WaitReason String κ)) :
    Withdrawn batch lanes id ({ lanes with asked := asked }.refuseBusy id inTheWay) := by
  have placed' : Placed batch [] { lanes with asked := asked } :=
    placed.congr rfl rfl rfl rfl rfl rfl
  have out := remove_conclude placed' waiting notChosen (.fail
      { reason := .busy
        message := (lanes.waiters id).label ++ " is waiting on " ++
          ", ".intercalate (inTheWay.map WaitReason.id).eraseDups
        blockedBy := some (inTheWay.map WaitReason.id).eraseDups })
  exact ⟨⟨out.placed, fun c => out.chronicled (c.congr rfl rfl rfl), out.evolves, out.admitted⟩,
    out.waiting, out.nested, out.active, out.others, out.done⟩

/-- What happens to a newcomer that wasn't granted as it arrived: nothing, or it is withdrawn. -/
theorem settleBusy_cases (placed : Placed batch [] lanes) (notChosen : id ∉ batch) (whenBusy : Option (WhenBusy κ)) :
    (∃ asked, lanes.settleBusy id whenBusy = { lanes with asked := asked }) ∨ ((lanes.waiters id).state = .waiting ∧
        Withdrawn batch lanes id (lanes.settleBusy id whenBusy)) := by
  have stays : ∃ asked, lanes = { lanes with asked := asked } := ⟨lanes.asked, rfl⟩
  unfold settleBusy
  split
  · exact .inl stays
  rename_i waiting
  rw [not_not] at waiting
  have refused := fun asked => refuseBusy_withdrawn placed waiting notChosen asked
  split
  · exact .inl stays
  · exact .inl stays
  · exact .inr ⟨waiting, refused lanes.asked _⟩
  · dsimp only
    split
    · exact .inr ⟨waiting, refused _ _⟩
    · exact .inl ⟨_, rfl⟩

theorem settleBusy_sound (sound : Sound lanes) (id : WaiterId)
    (without : (lanes.waiters id).state = .waiting → ∀ after, Withdrawn [] lanes id after →
      Quiescent after) (whenBusy : Option (WhenBusy κ)) :
    Sound (lanes.settleBusy id whenBusy) ∧ Steps [] lanes (lanes.settleBusy id whenBusy) := by
  rcases settleBusy_cases sound.placed (not_mem_nil : id ∉ []) whenBusy with
    ⟨asked, same⟩ | ⟨waiting, out⟩
  · rw [same]
    have sound' : Sound { lanes with asked := asked } := sound.congr rfl rfl rfl rfl rfl rfl rfl
    exact ⟨sound', sound'.placed, fun c => c.congr rfl rfl rfl, evolves_of_waiters rfl rfl, rfl⟩
  · exact ⟨⟨out.placed, out.chronicled sound.chronicled, without waiting _ out⟩, out.toSteps⟩

/-- An admission, of which `id` is the number. -/
structure Admitted (before : OperationLanes κ) (id : WaiterId) (after : OperationLanes κ) :
    Prop where
  sound : Sound after
  evolves : Evolves before after
  admitted : after.admitted = before.admitted + 1
  notRunning : (after.waiters id).state ≠ .running

theorem turnAway_admitted (sound : Sound lanes) (new : New waiter) (error : LaneRejectedError) :
    Admitted lanes lanes.admitted ((lanes.alloc waiter).reject lanes.admitted error) := by
  have fresh := alloc_placed sound.placed new
  have waiting : ((lanes.alloc waiter).waiters lanes.admitted).state = .waiting := by
    rw [alloc_waiters, if_pos rfl, new.state]
  have concluded := evolves_conclude waiting (.fail error)
  refine ⟨⟨fresh.conclude _, ?_, sound.quiescent.congr rfl rfl rfl fun id _ => ?_⟩,
    (evolves_alloc lanes waiter).trans concluded, rfl, ?_⟩
  · exact (alloc_chronicled sound.placed new sound.chronicled).conclude fresh waiting _
  · show (((lanes.alloc waiter).conclude lanes.admitted _).waiters id).locks = _
    rw [conclude_waiters, ← alloc_locks sound.placed new id]
    split
    · rename_i same; subst same; rfl
    · rfl
  · show (((lanes.alloc waiter).conclude lanes.admitted _).waiters lanes.admitted).state ≠ _
    rw [conclude_waiters, if_pos rfl]
    simp

/-- A newcomer that stays in its queue leaves everything else as it was. -/
theorem Enqueued.grant_waiting {locks : AdmissionLocks κ} (line : Enqueued [] before waiter locks lanes)
    (sound : Sound before) (waiting : (lanes.grant.waiters before.admitted).state = .waiting) :
    lanes.grant = lanes := by
  have absent := sound.placed.not_admitted
  have own : ∀ other, other ≠ before.admitted → lanes.locksOf other = before.locksOf other := by
    intro other different
    simp [locksOf, line.others other different]
  have notActive : ∀ other ∈ before.active, other ≠ before.admitted := by
    rintro other member rfl
    exact absent.1 member
  have notWaiting : ∀ other ∈ before.waiting, other ≠ before.admitted := by
    rintro other member rfl
    exact absent.2.1 member
  have notNested : ∀ other ∈ before.nested, other ≠ before.admitted := by
    rintro other member rfl
    exact absent.2.2.1 member
  -- What was in the queue of nested operations waits for a holder yet.
  have held : ∀ other ∈ before.nested, ∀ list, (lanes.waiters other).locks = some list →
      ∃ holder ∈ lanes.active, Conflict (lanes.locksOf holder) list := by
    intro other member list known
    rw [line.others other (notNested other member)] at known
    obtain ⟨holder, active, clash⟩ := sound.quiescent.nested other member list known
    exact ⟨holder, line.active ▸ active, by rwa [own holder (notActive holder active)]⟩
  have queue := line.nested
  have inLine := line.waiting
  cases nested : waiter.nested with
  | true =>
    rw [if_pos nested] at queue
    -- Free of what is held, it would have left the queue at once.
    refine grant_quiescent line.placed (line.quiescent sound.placed sound.quiescent nested fun list found => ?_)
    by_contra free
    push Not at free
    exact grant_newcomer line.placed queue held found free waiting
  | false =>
    rw [if_neg (by simp [nested])] at queue inLine
    obtain ⟨same, wanted, sums, covers⟩ :=
      grantNested_busy line.placed (queue ▸ held) LockTable.sums_empty
    have selected := finishSelection_selected line.placed _ sums
    have is : lanes.grant = (takeOut (lanes.select (lanes.grantNested .empty lanes.nested).2)).finishSelection
        (lanes.select (lanes.grantNested .empty lanes.nested).2).granted
        (lanes.select (lanes.grantNested .empty lanes.nested).2).dropped := by
      unfold grant
      dsimp only
      rw [same]
    rw [is] at waiting ⊢
    have sumsHeld : lanes.held.Sums (lanes.active.map lanes.locksOf) := by simpa using line.placed.sums
    -- What was in line stays in line: its obstacles are where they were.
    have stuck : ∀ front id back, before.waiting = front ++ id :: back →
        (∀ ahead ∈ front ++ [id], ∃ locks, (lanes.waiters ahead).locks = some locks) →
        (∃ other ∈ lanes.active.map lanes.locksOf ++ wanted, Conflict other (lanes.locksOf id)) ∨
          ∃ ahead ∈ front, Conflict (lanes.locksOf ahead) (lanes.locksOf id) := by
      intro front id back shape known
      have inBefore : ∀ other ∈ front ++ [id], other ∈ before.waiting := by
        intro other member
        rw [shape]
        exact append_subset.mpr ⟨subset_append_left _ _, by simp⟩ member
      have same : ∀ other ∈ front ++ [id], lanes.locksOf other = before.locksOf other :=
        fun other member => own other (notWaiting other (inBefore other member))
      have covered : ∀ other ∈ before.nested, before.locksOf other ∈ wanted := fun other member =>
        covers _ (.inr ⟨other, queue ▸ member, own other (notNested other member)⟩)
      have apart := sound.quiescent.stuck sound.placed covered shape fun ahead member => by
        rw [← line.others ahead (notWaiting ahead (inBefore ahead member))]
        exact known ahead member
      rw [same id (by simp), line.active, map_congr_left fun other member => own other (notActive other member)]
      refine apart.imp_right ?_
      rintro ⟨ahead, member, clash⟩
      exact ⟨ahead, member, (same ahead (mem_append_left _ member)).symm ▸ clash⟩
    have stays : lanes.select (lanes.grantNested .empty lanes.nested).2 = ⟨[], [], lanes.held, lanes⟩ ∨
        before.admitted ∈ (lanes.select (lanes.grantNested .empty lanes.nested).2).granted ∨
        before.admitted ∈ (lanes.select (lanes.grantNested .empty lanes.nested).2).dropped := by
      unfold select
      rw [inLine]
      rcases selectGrants_behind line.placed.normalized sumsHeld sums lanes stuck [before.admitted]
        with unmoved | ⟨blocked, reached⟩
      · exact .inl unmoved
      rw [reached, selectGrants]
      split
      · exact .inl rfl
      split
      · dsimp only
        split
        · exact .inr (.inl mem_cons_self)
        · exact .inr (.inr mem_cons_self)
      · exact .inl rfl
    rcases stays with unmoved | chosen
    · rw [unmoved]
      rfl
    exfalso
    have out : before.admitted ∉ ((takeOut (lanes.select (lanes.grantNested .empty lanes.nested).2)).finishSelection
        (lanes.select (lanes.grantNested .empty lanes.nested).2).granted
        (lanes.select (lanes.grantNested .empty lanes.nested).2).dropped).waiting := by
      intro member
      obtain ⟨-, notGranted, notDropped⟩ := (selected.line _).mp member
      exact chosen.elim notGranted notDropped
    rcases (selected.placed.waits _).mp waiting with member | member | member | member
    · exact out member
    · rw [selected.nested] at member
      exact absent.2.2.1 (queue ▸ member)
    · simp at member
    · simp at member

theorem grant_without {locks : AdmissionLocks κ} (sound : Sound before) (line : Enqueued [] before waiter locks lanes)
    (waiting : (lanes.grant.waiters before.admitted).state = .waiting)
    (out : Withdrawn [] lanes.grant before.admitted after) :
    Quiescent after := by
  rw [line.grant_waiting sound waiting] at out
  have absent := sound.placed.not_admitted
  refine sound.quiescent.congr ?_ ?_ (out.active.trans line.active) fun id member => ?_
  · rw [out.waiting, line.waiting]
    split
    · exact erase_of_not_mem absent.2.1
    · rw [erase_append_right _ absent.2.1]
      simp
  · rw [out.nested, line.nested]
    split
    · rw [erase_append_right _ absent.2.2.1]
      simp
    · exact erase_of_not_mem absent.2.2.1
  · have different : id ≠ before.admitted := by
      rintro rfl
      simp only [mem_append] at member
      tauto
    rw [out.others id different, line.others id different]

theorem admit_admitted (sound : Sound lanes) (admission : LaneAdmission κ) (inside : Bool) :
    Admitted lanes lanes.admitted (lanes.admitWaiter admission inside) ∧
      (lanes.turnsAway (makeWaiter admission inside) inside = none → admission.locks = .lookup →
          ((lanes.admitWaiter admission inside).waiters lanes.admitted).locks = none) := by
  have new := makeWaiter_new admission inside
  unfold admitWaiter
  cases turned : lanes.turnsAway (makeWaiter admission inside) inside with
  | some error =>
    simp only [turned]
    exact ⟨turnAway_admitted sound new error, by simp⟩
  | none =>
    simp only [turned]
    have line := enqueue_enqueued sound.placed new admission.locks
    have below : lanes.admitted < ((lanes.alloc (makeWaiter admission inside)).enqueue lanes.admitted
          admission.locks).admitted := line.admitted ▸ Nat.lt_succ_self _
    have granted := grant_granted line.placed
    obtain ⟨settled, steps⟩ := settleBusy_sound (granted.sound (line.chronicled sound.chronicled)) lanes.admitted
      (fun waiting after out => grant_without sound line waiting out) admission.whenBusy
    have moves := granted.evolves.trans steps.evolves
    have own := moves.2 lanes.admitted below
    refine ⟨⟨settled, line.evolves.trans moves, ?_, ?_⟩, fun _ lookup => ?_⟩
    · exact steps.admitted.trans (granted.admitted.trans line.admitted)
    · have state := own.state
      rw [line.own] at state
      simp only [new.state] at state
      grind
    · refine own.unknown ?_
      rw [line.own, lookup]

/-! ## Lookups, and the start of an effect -/

theorem lookupFailed_sound (sound : Sound lanes) (id : WaiterId) (cause : String) :
    Sound (lanes.lookupFailed id cause) ∧ Steps [] lanes (lanes.lookupFailed id cause) := by
  unfold lookupFailed
  split
  · exact ⟨sound, .refl sound.placed⟩
  · rename_i waiting
    rw [not_not] at waiting
    have out := remove_conclude sound.placed waiting not_mem_nil (.die cause)
    have granted := grant_granted out.placed
    exact ⟨granted.sound (out.chronicled sound.chronicled), out.toSteps.trans granted.steps⟩

theorem lookupSucceeded_sound (sound : Sound lanes) (below : id < lanes.admitted)
    (unknown : (lanes.waiters id).locks = none) (locks : List (LaneLock κ)) :
    Sound (lanes.lookupSucceeded id locks) ∧ (lanes.lookupSucceeded id locks).admitted = lanes.admitted ∧
      ∃ waiters : WaiterId → Waiter κ, (∀ other, waiters other =
          { lanes.waiters other with locks := (waiters other).locks }) ∧
        (∀ other ≠ id, waiters other = lanes.waiters other) ∧
        ∀ other < lanes.admitted, Moves (waiters other) ((lanes.lookupSucceeded id locks).waiters other) := by
  unfold lookupSucceeded
  split
  · exact ⟨sound, rfl, lanes.waiters, fun _ => rfl, fun _ _ => rfl, fun _ _ => .refl _⟩
  have placed := learn_placed sound.placed below unknown locks
  have granted := grant_granted placed
  refine ⟨granted.sound (learn_chronicled sound.placed sound.chronicled unknown locks),
    granted.admitted, (lanes.learn id locks).waiters, fun other => ?_, fun other different => ?_,
    granted.evolves.2⟩
  · rw [learn_waiters]
    split
    · rename_i same; subst same; rfl
    · rfl
  · rw [learn_waiters, if_neg different]

/-- The loop of `#run` over the exclusive locks counts starts, and nothing else. -/
theorem foldl_countStart (locks : List (LaneLock κ)) (lanes : OperationLanes κ) :
    ∃ starts, locks.foldl countStart lanes = { lanes with exclusiveStarts := starts } := by
  induction locks generalizing lanes with
  | nil => exact ⟨lanes.exclusiveStarts, rfl⟩
  | cons lock locks ih =>
    obtain ⟨starts, rest⟩ := ih (lanes.countStart lock)
    refine ⟨starts, ?_⟩
    rw [foldl_cons, rest]
    unfold countStart
    split <;> rfl

/-- The start of an effect, where it starts. -/
structure Begun (batch : List WaiterId) (before : OperationLanes κ) (id : WaiterId)
    (after : OperationLanes κ) : Prop where
  placed : Placed batch [] after
  chronicled : Chronicled before → Chronicled after
  quiescent : Quiescent before → Quiescent after
  admitted : after.admitted = before.admitted
  waiters : ∀ other, after.waiters other =
    if other = id then { before.waiters id with state := .running } else before.waiters other

theorem beginRun_begun (placed : Placed batch [] lanes) (granted : (lanes.waiters id).state = .granted) :
    (lanes.beginRun id).1 = true ∧ Begun batch lanes id (lanes.beginRun id).2 := by
  obtain ⟨starts, counted⟩ := foldl_countStart
    ((lanes.update id fun waiter => { waiter with state := .running }).locksOf id)
    (lanes.update id fun waiter => { waiter with state := .running })
  unfold beginRun
  rw [if_neg (by simp [granted])]
  refine ⟨rfl, ?_⟩
  dsimp only
  rw [counted]
  have waiters : ∀ other, (lanes.update id fun waiter => { waiter with state := .running }).waiters other =
      if other = id then { lanes.waiters id with state := .running }
      else lanes.waiters other := fun other => update_waiters lanes id other _
  have state : ∀ other, ((lanes.update id fun waiter => { waiter with state := .running }).waiters other).state =
      if other = id then .running else (lanes.waiters other).state := by
    intro other; rw [waiters]; split <;> rfl
  have same : ∀ {α : Type} (field : Waiter κ → α)
      (_ : ∀ waiter : Waiter κ, field { waiter with state := .running } = field waiter) other,
      field ((lanes.update id fun waiter => { waiter with state := .running }).waiters other) =
        field (lanes.waiters other) := by
    intro α field keeps other
    rw [waiters]
    split
    · rename_i here; subst here; exact keeps _
    · rfl
  have locks := same Waiter.locks fun _ => rfl
  have locksOf' : (lanes.update id fun waiter => { waiter with state := .running }).locksOf = lanes.locksOf := by
    funext other; simp only [locksOf, locks]
  have nested := same Waiter.nested fun _ => rfl
  have began : Placed batch [] (lanes.update id fun waiter => { waiter with state := .running }) := by
    refine ⟨fun other => ?_, fun other => ?_, fun other => ?_, fun other => ?_, placed.once,
      placed.activeOnce, fun other => ?_, fun other => ?_, placed.inOrder, fun other => ?_,
      fun other => ?_, ?_, ?_, fun other => ?_, fun other => ?_⟩
    · rw [state]
      split
      · rename_i here; subst here
        exact fun _ => placed.bound other (by simp [granted])
      · exact placed.bound other
    · rw [locks]; exact placed.unknown other
    · rw [state]
      refine Iff.trans ?_ (placed.waits other)
      split
      · rename_i here; subst here; simp [granted]
      · exact Iff.rfl
    · rw [state]
      refine Iff.trans ?_ (placed.holds other)
      split
      · rename_i here; subst here; simp [granted]
      · exact Iff.rfl
    · rw [nested]; exact placed.ordinary other
    · rw [nested]; exact placed.inner other
    · rw [locks]; exact placed.normalized other
    · rw [locks]; exact placed.known other
    · rw [locksOf']; exact placed.sums
    · rw [locksOf']; exact placed.apart
    · rw [waiters]
      split
      · simp
      · exact placed.pending other
    · rw [waiters]
      split
      · rename_i here; subst here
        exact fun _ => placed.settled other (.inl granted)
      · exact placed.settled other
  refine ⟨began.congr rfl rfl rfl rfl rfl rfl,
    fun chronicled => ⟨fun other => ?_, fun other => ?_, fun other holding => ?_, ?_⟩,
    fun quiescent => quiescent.congr rfl rfl rfl fun other _ => locks other, rfl, waiters⟩
  · refine (chronicled.ended other).trans ?_
    show _ ↔ _ ∧ _ = _
    rw [state]
    split
    · rename_i here; subst here; simp [granted]
    · exact Iff.rfl
  · refine (chronicled.known other).trans ?_
    show _ ↔ Option.isSome _ = true
    rw [locks]
  · refine chronicled.granted other ?_
    by_cases here : other = id
    · subst here; exact .inl granted
    · have unmoved := state other
      rw [if_neg here] at unmoved
      rwa [← unmoved]
  · refine chronicled.stillInOrder _ (fun other _ => ?_) placed.unknown
    show Keeps _ ((lanes.update id fun waiter => { waiter with state := .running }).waiters other)
    rw [waiters]
    split
    · rename_i here; subst here
      exact ⟨rfl, rfl, rfl, rfl, fun _ h => h⟩
    · exact (Moves.refl _).toKeeps

theorem new_sound (options : OperationLanesOptions κ) : Sound (new options) where
  placed :=
    { bound := fun _ state => absurd rfl state
      unknown := fun _ _ => rfl
      waits := fun _ => by simp [new, Waiter.unused]
      holds := fun _ => by simp [new, Waiter.unused]
      once := by simp [new]
      activeOnce := nodup_nil
      ordinary := by simp [new]
      inner := by simp [new]
      inOrder := .nil
      normalized := fun _ _ found => by simp [new, Waiter.unused] at found
      known := by simp [new]
      sums := LockTable.sums_empty
      apart := .nil
      pending := fun _ state => by simp [new, Waiter.unused] at state
      settled := fun _ state => by simp [new, Waiter.unused] at state }
  chronicled :=
    ⟨fun _ => by simp [new], fun _ => by simp [new, Waiter.unused],
      fun _ state => by simp [new, Waiter.unused] at state, trivial⟩
  quiescent := ⟨by simp [new], by simp [new]⟩

end OperationLanes

end Kiln.Operations
