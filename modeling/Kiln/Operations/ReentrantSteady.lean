import Kiln.Operations.Reentrant

/-!
# What holds between the turns

The functions on the stack each rely on something of the waiters: a selection on its operations
waiting and holding their locks, the loop of a pause on what it has passed by, a pause about to
return on nothing being left that it would have withdrawn. `Orderly` says all of it, and the
turns of the functions on the stack keep it. The calls do too, but for those that withdraw or
pause what a selection has chosen.
-/

set_option linter.unusedSectionVars false

namespace Kiln.Operations
open Kiln.Lib OperationLanes LaneWorld List

variable {κ : Type} [LinearOrder κ]

namespace OperationLanes

/-- What a pause leaves alone: nested work of what runs, and what carries on. -/
def exempt (waiter : Waiter κ) : Bool :=
  (waiter.nested && !waiter.continuation) || waiter.carriesOnWhilePaused

theorem pauseKeeps_iff (waiter : Waiter κ) :
    pauseKeeps waiter = true ↔ exempt waiter = true ∨ waiter.state ≠ .granted := by
  simp [pauseKeeps, exempt]

/-! ## What a turn does to the waiters, for a pause -/

/-- A waiter goes no way back. -/
structure Onward (before after : Waiter κ) : Prop where
  exempt : exempt after = exempt before
  waiting : after.state = .waiting → before.state = .waiting
  granted : after.state = .granted → before.state = .waiting ∨ before.state = .granted

theorem Moves.onward {before after : Waiter κ} (h : Moves before after) : Onward before after := by
  have state := h.state
  refine ⟨?_, fun waiting => ?_, fun granted => ?_⟩
  · simp only [OperationLanes.exempt, h.nested, h.continuation, h.carriesOn]
  · grind
  · grind

/-- Every waiter goes onward, and while the lanes are paused a new one waits only if the pause leaves it alone. -/
structure Onwards (before after : OperationLanes κ) : Prop where
  admitted : before.admitted ≤ after.admitted
  paused : after.paused = before.paused
  old : ∀ id < before.admitted, Onward (before.waiters id) (after.waiters id)
  new : after.paused = true → ∀ id, before.admitted ≤ id →
    (after.waiters id).state ≠ .done → exempt (after.waiters id) = true

theorem Onwards.refl {batch : List WaiterId} {lanes : OperationLanes κ}
    (placed : Placed batch [] lanes) : Onwards lanes lanes :=
  ⟨le_rfl, rfl, fun _ _ => (Moves.refl _).onward,
    fun _ id above state => absurd (placed.bound id state) (not_lt.mpr above)⟩

theorem Evolves.onwards {batch : List WaiterId} {before after : OperationLanes κ}
    (h : Evolves before after) (placed : Placed batch [] after)
    (admitted : after.admitted = before.admitted) (paused : after.paused = before.paused) :
    Onwards before after :=
  ⟨h.1, paused, fun id below => (h.2 id below).onward,
    fun _ id above state => absurd (placed.bound id state) (not_lt.mpr (admitted ▸ above))⟩

/-! ## The parts don't pause the lanes -/

@[simp] theorem remove_paused (lanes : OperationLanes κ) (id : WaiterId) : (lanes.remove id).paused = lanes.paused := by
  unfold remove; split <;> rfl

@[simp] theorem conclude_paused (lanes : OperationLanes κ) (id : WaiterId) (how : Settled) :
    (lanes.conclude id how).paused = lanes.paused := rfl

@[simp] theorem start_paused (lanes : OperationLanes κ) (id : WaiterId) : (lanes.start id).paused = lanes.paused := rfl

@[simp] theorem letGo_paused (lanes : OperationLanes κ) (id : WaiterId) : (lanes.letGo id).paused = lanes.paused := rfl

@[simp] theorem learn_paused (lanes : OperationLanes κ) (id : WaiterId)
    (locks : List (LaneLock κ)) : (lanes.learn id locks).paused = lanes.paused := rfl

theorem foldl_paused {step : OperationLanes κ → WaiterId → OperationLanes κ}
    (same : ∀ lanes id, (step lanes id).paused = lanes.paused) (ids : List WaiterId)
    (lanes : OperationLanes κ) : (ids.foldl step lanes).paused = lanes.paused := by
  induction ids generalizing lanes with
  | nil => rfl
  | cons id ids ih => rw [foldl_cons, ih, same]

theorem grantFreeNested_paused (lanes : OperationLanes κ) {id : WaiterId}
    (locks : List (LaneLock κ)) (kind : (lanes.waiters id).nested = true) :
    (lanes.grantFreeNested id locks).paused = lanes.paused := by
  obtain ⟨asked, ⟨how, shape⟩ | shape⟩ := lanes.grantFreeNested_cases id locks kind
  · rw [shape, conclude_paused]; exact remove_paused lanes id
  · rw [shape, start_paused]; exact remove_paused lanes id

theorem takeOut_paused (lanes : OperationLanes κ) (blocked : LockTable κ) :
    (takeOut (lanes.select blocked)).paused = lanes.paused := by
  have onlyRefused : OnlyRefused lanes (lanes.select blocked).env :=
    selectGrants_env OnlyRefused.refl OnlyRefused.trans admitFree_onlyRefused _ _ _ _
  unfold takeOut
  rw [foldl_paused remove_paused]
  show (lanes.select blocked).env.paused = lanes.paused
  rw [onlyRefused.rest]

theorem settleBusy_paused (lanes : OperationLanes κ) (id : WaiterId) (whenBusy : Option (WhenBusy κ)) :
    (lanes.settleBusy id whenBusy).paused = lanes.paused := by
  have refused : ∀ (lanes : OperationLanes κ) inTheWay, (lanes.refuseBusy id inTheWay).paused = lanes.paused := by
    intro lanes inTheWay
    exact remove_paused lanes id
  unfold settleBusy
  split
  · rfl
  split
  · rfl
  · rfl
  · exact refused _ _
  · dsimp only
    split
    · exact refused _ _
    · rfl

theorem pauseWaiting_paused (lanes : OperationLanes κ) : lanes.pauseWaiting.paused = lanes.paused := by
  unfold pauseWaiting
  exact foldl_paused (fun lanes id => by rw [reject, conclude_paused, remove_paused]) _ _

end OperationLanes

namespace LaneMachine

/-! ## The invariant -/

/-- Everything that waits, or is granted and hasn't started, is exempt from a pause. -/
def Calm (lanes : OperationLanes κ) : Prop :=
  ∀ id, (lanes.waiters id).state = .waiting ∨ (lanes.waiters id).state = .granted → exempt (lanes.waiters id) = true

/-- What a function on the stack relies on. -/
def FrameOk (lanes : OperationLanes κ) : LaneFrame κ → Prop
  | .nested _ blocked => ∃ wanted, blocked.Sums wanted
  | .pausing visited => ∀ id ∈ visited, id < lanes.admitted ∧ (exempt (lanes.waiters id) = true ∨
        ((lanes.waiters id).state ≠ .waiting ∧ (lanes.waiters id).state ≠ .granted))
  | _ => True

/-- A newcomer isn't among what was chosen before it came. -/
def NewcomersApart : List (LaneFrame κ) → Prop
  | [] => True
  | .admitting id _ :: rest => id ∉ rest.flatMap chosenBy ∧ NewcomersApart rest
  | _ :: rest => NewcomersApart rest

/-- A `setPaused` that is about to return finds the lanes calm, unless one that it called is still in its loop. -/
def ReturnsTo (calm : Prop) : List (LaneFrame κ) → Prop
  | [] => True
  | .pausing _ :: _ => True
  | .pauseReturn :: rest => calm ∧ ReturnsTo calm rest
  | _ :: rest => ReturnsTo calm rest

omit [LinearOrder κ] in
theorem ReturnsTo.of_calm {calm : Prop} (h : calm) (stack : List (LaneFrame κ)) :
    ReturnsTo calm stack := by
  induction stack with
  | nil => trivial
  | cons frame rest ih =>
    cases frame with
    | pausing _ => trivial
    | pauseReturn => exact ⟨h, ih⟩
    | callback | nested _ _ | starting _ | admitting _ _ => exact ih

variable {stack : List (LaneFrame κ)}

omit [LinearOrder κ] in
theorem ReturnsTo.imp {before after : Prop} (h : before → after) (returns : ReturnsTo before stack) :
    ReturnsTo after stack := by
  induction stack with
  | nil => trivial
  | cons frame rest ih =>
    cases frame with
    | pausing _ => trivial
    | pauseReturn => exact ⟨h returns.1, ih returns.2⟩
    | callback | nested _ _ | starting _ | admitting _ _ => exact ih returns

/-- What the stack and a pause have to do with the waiters. -/
structure Steady (machine : LaneMachine κ) : Prop where
  frames : ∀ frame ∈ machine.stack, FrameOk machine.world.lanes frame
  newcomers : NewcomersApart machine.stack
  hushed : machine.world.lanes.paused = true → ∀ id, (machine.world.lanes.waiters id).state = .waiting →
      exempt (machine.world.lanes.waiters id) = true
  returns : machine.world.lanes.paused = true → ReturnsTo (Calm machine.world.lanes) machine.stack
  stands : machine.stands = true → machine.world.lanes.paused = true ∧ Calm machine.world.lanes

/-- What holds between two turns, where no call was careless. -/
structure Orderly (machine : LaneMachine κ) : Prop where
  counted : Counted machine.chosen machine.world
  steady : Steady machine

variable {before after : OperationLanes κ}

theorem hushed_onwards (h : Onwards before after)
    (hushed : before.paused = true → ∀ id, (before.waiters id).state = .waiting →
      exempt (before.waiters id) = true) (paused : after.paused = true) (id : WaiterId)
    (waiting : (after.waiters id).state = .waiting) : exempt (after.waiters id) = true := by
  by_cases below : id < before.admitted
  · have onward := h.old id below
    rw [onward.exempt]
    exact hushed (h.paused ▸ paused) id (onward.waiting waiting)
  · exact h.new paused id (not_lt.mp below) (by simp [waiting])

theorem calm_onwards (h : Onwards before after) (paused : after.paused = true) (calm : Calm before) :
    Calm after := by
  intro id arrived
  by_cases below : id < before.admitted
  · have onward := h.old id below
    rw [onward.exempt]
    refine calm id ?_
    rcases arrived with waiting | granted
    · exact Or.inl (onward.waiting waiting)
    · exact onward.granted granted
  · exact h.new paused id (not_lt.mp below) (by rcases arrived with state | state <;> simp [state])

variable {frame : LaneFrame κ}

theorem frameOk_onwards (h : Onwards before after) (ok : FrameOk before frame) :
    FrameOk after frame := by
  cases frame with
  | pausing visited =>
    intro id member
    obtain ⟨below, past⟩ := ok id member
    have onward := h.old id below
    refine ⟨below.trans_le h.admitted, ?_⟩
    rw [onward.exempt]
    refine past.imp_right fun ⟨notWaiting, notGranted⟩ => ⟨mt onward.waiting notWaiting, ?_⟩
    intro granted
    exact (onward.granted granted).elim notWaiting notGranted
  | nested _ _ => exact ok
  | callback | starting _ | pauseReturn | admitting _ _ => trivial

/-- A function that is neither in a loop that withdraws, nor waits for its newcomer's turn, nor is about to say that a
pause stands. -/
def Plain : LaneFrame κ → Prop
  | .callback | .nested _ _ | .starting _ => True
  | .pausing _ | .pauseReturn | .admitting _ _ => False

variable {frames : List (LaneFrame κ)}

omit [LinearOrder κ] in
theorem newcomersApart_plain (plain : ∀ frame ∈ frames, Plain frame) (apart : NewcomersApart stack) :
    NewcomersApart (frames ++ stack) := by
  induction frames with
  | nil => exact apart
  | cons frame frames ih =>
    have first := plain frame (by simp)
    have rest := ih fun other member => plain other (mem_cons_of_mem _ member)
    cases frame with
    | callback | nested _ _ | starting _ => exact rest
    | pausing _ | pauseReturn | admitting _ _ => exact first.elim

omit [LinearOrder κ] in
theorem returnsTo_plain (plain : ∀ frame ∈ frames, Plain frame) {calm : Prop} (returns : ReturnsTo calm stack) :
    ReturnsTo calm (frames ++ stack) := by
  induction frames with
  | nil => exact returns
  | cons frame frames ih =>
    have first := plain frame (by simp)
    have rest := ih fun other member => plain other (mem_cons_of_mem _ member)
    cases frame with
    | callback | nested _ _ | starting _ => exact rest
    | pausing _ | pauseReturn | admitting _ _ => exact first.elim

variable {machine : LaneMachine κ}

/-- A turn that moves the waiters onward and puts plain functions on the stack. -/
theorem Steady.put (h : Steady machine) {world : LaneWorld κ} (onwards : Onwards machine.world.lanes world.lanes)
    (ok : ∀ frame ∈ frames, FrameOk world.lanes frame) (plain : ∀ frame ∈ frames, Plain frame) :
    Steady ({ machine with world := world }.enter frames) := by
  refine ⟨fun frame member => ?_, newcomersApart_plain plain h.newcomers,
    hushed_onwards onwards h.hushed, fun paused => returnsTo_plain plain ?_, fun up => ?_⟩
  · rcases mem_append.mp member with member | member
    · exact ok frame member
    · exact frameOk_onwards onwards (h.frames frame member)
  · exact (h.returns (onwards.paused ▸ paused)).imp (calm_onwards onwards paused)
  · obtain ⟨paused, calm⟩ := h.stands up
    have still := onwards.paused.trans paused
    exact ⟨still, calm_onwards onwards still calm⟩

theorem Steady.stay (h : Steady machine) {world : LaneWorld κ} (onwards : Onwards machine.world.lanes world.lanes) :
    Steady { machine with world := world } := by
  have entered : Steady ({ machine with world := world }.enter []) :=
    h.put onwards (by simp) (by simp)
  exact entered

variable {rest : List (LaneFrame κ)}

/-- A function that is left, other than one whose loop withdraws. -/
theorem Steady.pop (h : Steady machine) (stack : machine.stack = frame :: rest)
    (notPausing : ∀ visited, frame ≠ .pausing visited) :
    Steady { machine with stack := rest } := by
  have newcomers := h.newcomers
  have returns := h.returns
  rw [stack] at newcomers returns
  refine ⟨fun other member => h.frames other (stack ▸ mem_cons_of_mem _ member), ?_, h.hushed,
    fun paused => ?_, h.stands⟩
  · cases frame with
    | admitting id whenBusy => exact newcomers.2
    | callback | nested _ _ | starting _ | pausing _ | pauseReturn => exact newcomers
  · have returns := returns paused
    cases frame with
    | pausing visited => exact absurd rfl (notPausing visited)
    | pauseReturn => exact returns.2
    | callback | nested _ _ | starting _ | admitting _ _ => exact returns

/-! ## The turns of a function on the stack -/

theorem goNested_orderly (h : Orderly machine) {index : Nat} {blocked : LockTable κ}
    (table : ∃ wanted, blocked.Sums wanted) :
    Orderly (machine.goNested index blocked) := by
  have placed := h.counted.placed
  obtain ⟨wanted, sums⟩ := table
  unfold goNested
  dsimp only
  cases found : machine.world.lanes.nested[index]? with
  | none =>
    -- The line is selected from, and what is dropped is rejected.
    have out := takeOut_select placed blocked sums
    have rejected := rejectAll out.placed
    have evolves := out.evolves.trans rejected.evolves
    have admitted := rejected.admitted.trans out.admitted
    have paused := (foldl_paused (fun lanes id => conclude_paused lanes id
      (.fail (dropError (lanes.waiters id)))) (machine.world.lanes.select blocked).dropped
      (takeOut (machine.world.lanes.select blocked))).trans (takeOut_paused _ blocked)
    refine ⟨h.counted.lanes rejected.placed evolves admitted,
      h.steady.put (evolves.onwards rejected.placed admitted paused) ?_ ?_⟩
    · simp [FrameOk]
    · simp [Plain]
  | some id =>
    have member : id ∈ machine.world.lanes.nested := mem_of_getElem? found
    have stay : ∀ locks, OneLockPerKey locks → Orderly (machine.enter [.nested (index + 1) (blocked.take locks)]) := by
      intro locks once
      refine ⟨h.counted, h.steady.put (.refl placed) ?_ ?_⟩
      · simpa [FrameOk] using ⟨_, sums.take once⟩
      · simp [Plain]
    dsimp only
    cases known : (machine.world.lanes.waiters id).locks with
    | none => exact stay [] nodup_nil
    | some locks =>
      dsimp only
      split
      · exact stay locks (placed.normalized id locks known)
      rename_i free
      have unheld : ∀ lock ∈ locks, machine.world.lanes.held.conflicts lock = false := by
        intro lock among
        by_contra hit
        exact free (any_eq_true.mpr ⟨lock, among, by simpa using hit⟩)
      have freed := grantFreeNested_freed placed member known unheld
      have paused := grantFreeNested_paused machine.world.lanes locks (placed.inner id member)
      have counted := h.counted.lanes freed.placed freed.evolves freed.admitted
      have onwards := freed.evolves.onwards freed.placed freed.admitted paused
      split
      · refine ⟨counted, h.steady.put onwards ?_ ?_⟩
        · simpa [FrameOk] using ⟨wanted, sums⟩
        · simp [Plain]
      · refine ⟨counted, h.steady.put onwards ?_ ?_⟩
        · simpa [FrameOk] using ⟨wanted, sums⟩
        · simp [Plain]

variable {id : WaiterId}

theorem beginRelease_of_state (notDone : (machine.world.lanes.waiters id).state ≠ .done) :
    machine.beginRelease id = (machine.withLanes (machine.world.lanes.letGo id)).enter [granting] := by
  rw [beginRelease]
  exact if_neg notDone

theorem goPausing_orderly (h : Orderly machine) {visited : List WaiterId}
    (stack : machine.stack = .pausing visited :: rest) :
    Orderly ({ machine with stack := rest }.goPausing visited) := by
  have placed := h.counted.placed
  have rows := h.steady.frames
  have newcomers : NewcomersApart rest := by
    have apart := h.steady.newcomers
    rw [stack] at apart
    exact apart
  have past : FrameOk machine.world.lanes (.pausing visited) := rows _ (by simp [stack])
  have below : ∀ frame ∈ rest, FrameOk machine.world.lanes frame :=
    fun frame member => rows frame (by simp [stack, member])
  have counted : Counted (rest.flatMap chosenBy) machine.world := by
    have counted := h.counted
    rw [chosen, stack] at counted
    exact counted
  unfold goPausing
  dsimp only
  cases found : machine.world.lanes.active.find? (· ∉ visited) with
  | none =>
    -- Everything active was passed by: what is granted is exempt.
    have calm : machine.world.lanes.paused = true → Calm machine.world.lanes := by
      intro paused id arrived
      rcases arrived with waiting | granted
      · exact h.steady.hushed paused id waiting
      · have active := (placed.holds id).mp (Or.inl granted)
        have isPast : id ∈ visited := by
          simpa using find?_eq_none.mp found id active
        exact (past id isPast).2.resolve_right fun ⟨_, notGranted⟩ => notGranted granted
    refine ⟨counted, fun frame member => ?_, newcomers, h.steady.hushed, fun paused => ?_, h.steady.stands⟩
    · simp only [enter, cons_append, nil_append, mem_cons] at member
      rcases member with rfl | rfl | member
      · exact ⟨[], LockTable.sums_empty⟩
      · trivial
      · exact below frame member
    · exact .of_calm (calm paused) _
  | some id =>
    have active : id ∈ machine.world.lanes.active := mem_of_find?_eq_some found
    have holding := (placed.holds id).mpr active
    have bound : id < machine.world.lanes.admitted := placed.bound id (by
      rcases holding with state | state <;> simp [state])
    dsimp only
    split
    · rename_i keeps
      rw [pauseKeeps_iff] at keeps
      have passes : exempt (machine.world.lanes.waiters id) = true ∨
          ((machine.world.lanes.waiters id).state ≠ .waiting ∧ (machine.world.lanes.waiters id).state ≠ .granted) := by
        refine keeps.imp_right fun notGranted => ⟨?_, notGranted⟩
        rcases holding with state | state <;> simp [state]
      refine ⟨counted, fun frame member => ?_, newcomers, h.steady.hushed, fun _ => trivial, h.steady.stands⟩
      simp only [enter, cons_append, nil_append, mem_cons] at member
      rcases member with rfl | member
      · intro other among
        rcases mem_cons.mp among with rfl | among
        · exact ⟨bound, passes⟩
        · exact past other among
      · exact below frame member
    · rename_i stops
      rw [pauseKeeps_iff, not_or, not_not] at stops
      have granted := stops.2
      generalize machine.world.lanes.pausedError (machine.world.lanes.waiters id) = refusal
      have left := refuse_letGo counted.placed granted refusal
      have paused : ((machine.world.lanes.update id
          fun waiter => { waiter with refusal := some refusal }).letGo id).paused =
          machine.world.lanes.paused := rfl
      have onwards := left.evolves.onwards left.placed left.admitted paused
      have done : (((machine.world.lanes.update id
          fun waiter => { waiter with refusal := some refusal }).letGo id).waiters id).state =
          .done := by rw [letGo_waiters, if_pos rfl]
      have notDone : ((machine.world.lanes.update id
          fun waiter => { waiter with refusal := some refusal }).waiters id).state ≠ .done := by
        rw [update_waiters_self]
        simp [granted]
      rw [beginRelease_of_state (by exact notDone)]
      refine ⟨counted.lanes left.placed left.evolves left.admitted, fun frame member => ?_, newcomers,
        hushed_onwards onwards h.steady.hushed, fun _ => trivial, fun up => ?_⟩
      · simp only [enter, withLanes, cons_append, nil_append, mem_cons] at member
        rcases member with rfl | rfl | member
        · exact ⟨[], LockTable.sums_empty⟩
        · intro other among
          rcases mem_cons.mp among with rfl | among
          · refine ⟨left.admitted ▸ bound, Or.inr ⟨fun same => ?_, fun same => ?_⟩⟩
            · exact absurd (done.symm.trans same) (by simp)
            · exact absurd (done.symm.trans same) (by simp)
          · exact frameOk_onwards onwards past other among
        · exact frameOk_onwards onwards (below frame member)
      · obtain ⟨isPaused, calm⟩ := h.steady.stands up
        exact ⟨isPaused, calm_onwards onwards isPaused calm⟩

theorem Orderly.pop (h : Orderly machine) (stack : machine.stack = frame :: rest)
    (nothing : chosenBy frame = []) (notPausing : ∀ visited, frame ≠ .pausing visited) :
    Orderly { machine with stack := rest } := by
  refine ⟨?_, h.steady.pop stack notPausing⟩
  have counted := h.counted
  rw [chosen, stack, flatMap_cons, nothing, nil_append] at counted
  exact counted

theorem goStarting_orderly (h : Orderly machine) {ids : List WaiterId}
    (stack : machine.stack = .starting (id :: ids) :: rest) :
    Orderly (({ machine with stack := rest }.withLanes (machine.world.lanes.start id)).enter
      [.callback, .starting ids]) := by
  have counted : Counted (id :: (ids ++ rest.flatMap chosenBy)) machine.world := by
    have counted := h.counted
    rw [chosen, stack] at counted
    exact counted
  have waiting : (machine.world.lanes.waiters id).state = .waiting :=
    (counted.placed.waits id).mpr (by simp)
  have started := counted.placed.start
  have evolves := evolves_start waiting
  have popped := h.steady.pop stack (by simp)
  refine ⟨counted.lanes started evolves rfl, popped.put (evolves.onwards started rfl rfl) ?_ ?_⟩
  · simp [FrameOk]
  · simp [Plain]

theorem goAdmitting_orderly (h : Orderly machine) {whenBusy : Option (WhenBusy κ)}
    (stack : machine.stack = .admitting id whenBusy :: rest) :
    Orderly ({ machine with stack := rest }.withLanes (machine.world.lanes.settleBusy id whenBusy)) := by
  have popped := h.pop stack rfl (by simp)
  have notChosen : id ∉ rest.flatMap chosenBy := by
    have newcomers := h.steady.newcomers
    rw [stack] at newcomers
    exact newcomers.1
  have paused := machine.world.lanes.settleBusy_paused id whenBusy
  have placed := popped.counted.placed
  have moved : Steps (rest.flatMap chosenBy) machine.world.lanes (machine.world.lanes.settleBusy id whenBusy) := by
    rcases settleBusy_cases placed notChosen whenBusy with ⟨asked, same⟩ | ⟨-, out⟩
    · rw [same]
      exact ⟨placed.congr rfl rfl rfl rfl rfl rfl, fun c => c.congr rfl rfl rfl, evolves_of_waiters rfl rfl, rfl⟩
    · exact out.toSteps
  refine ⟨popped.counted.lanes moved.placed moved.evolves moved.admitted, ?_⟩
  exact popped.steady.stay (moved.evolves.onwards moved.placed moved.admitted paused)

/-- A `setPaused` that returns leaves the lanes calm. -/
theorem goPauseReturn_orderly (h : Orderly machine) {rest : List (LaneFrame κ)}
    (stack : machine.stack = .pauseReturn :: rest) :
    Orderly { machine with stack := rest, stands := machine.world.lanes.paused } := by
  have popped := h.pop stack rfl (by simp)
  refine ⟨popped.counted, popped.steady.frames, popped.steady.newcomers, popped.steady.hushed,
    popped.steady.returns, fun up => ⟨up, ?_⟩⟩
  have returns := h.steady.returns up
  rw [stack] at returns
  exact returns.1

/-- The next turn of the innermost function. -/
theorem Orderly.go {after : LaneMachine κ} (h : Orderly machine)
    (step : machine.step .go = some after) : Orderly after := by
  cases stack : machine.stack with
  | nil => simp [LaneMachine.step, stack] at step
  | cons frame rest =>
    simp only [LaneMachine.step, stack] at step
    cases step
    cases frame with
    | callback => exact h.pop stack rfl (by simp)
    | nested index blocked =>
      exact goNested_orderly (h.pop stack rfl (by simp)) (h.steady.frames (.nested index blocked) (by simp [stack]))
    | starting ids =>
      cases ids with
      | nil => exact h.pop stack rfl (by simp)
      | cons id ids => exact goStarting_orderly h stack
    | pausing visited => exact goPausing_orderly h stack
    | pauseReturn => exact goPauseReturn_orderly h stack
    | admitting id whenBusy => exact goAdmitting_orderly h stack

end LaneMachine

end Kiln.Operations
