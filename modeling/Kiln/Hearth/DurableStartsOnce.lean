import Kiln.Operations.LanesRefusals
import Kiln.Hearth.DurableStarts

/-!
# One operation for an idempotency key

However calls under one key are interleaved, one operation is recorded, every call that returns gives it, and its
workflow alone is run. A call that found none and then meets the operation of its own key in the lanes is admitted as
anyone else is: a person's is refused by it, or waits for it as long as a person does. As long as none does, no call
is refused for its own key.
-/

namespace Kiln.Hearth
open Kiln.Lib Kiln.Operations StartsState OperationLanes List

/-- Labels of other operations. -/
def DurableStart.Foreign (start : DurableStart) (labels : List String) : Prop :=
  ∀ label ∈ labels, start.isOwn label = false

namespace StartsState

/-! ## What is to hold -/

structure StartsOnce (start : DurableStart) (s : StartsState) : Prop where
  once : s.recorded.length ≤ 1
  rows : s.rows.map (·.id) = s.recorded
  returned : ∀ call value operation, s.calls call = some value →
    value.answer = some (.returned operation) → s.recorded = [operation]
  dispatched : ∀ fiber ∈ s.dispatches, s.recorded = [fiber.id]
  workflows : ∀ operation ∈ s.workflows, s.recorded = [operation]
  /-- The workflow of one that runs was started, or startup's sweep starts it. -/
  started : ∀ row ∈ s.rows, row.state = .running → row.id ∈ s.workflows ∨ row.id ∈ s.undispatched
  /-- What a call is refused for is not of its own key. -/
  busy : ∀ call value blockedBy, s.calls call = some value →
    value.answer = some (.busy blockedBy) → start.Foreign blockedBy

/-- Whether one of the waiters is of the key, and in the way of the locks. -/
def ownInTheWay (start : DurableStart) (lanes : OperationLanes String) (locks : List (LaneLock String))
    (others : List WaiterId) : Bool :=
  others.any fun other => start.isOwn (lanes.waiters other).label &&
    locks.any (LockTable.empty.take (lanes.locksOf other)).conflicts

/-- Whether one of the waiters is in the way of a lock on a whole. -/
def wholeInTheWay (lanes : OperationLanes String) (locks : List (LaneLock String)) (others : List WaiterId) : Bool :=
  others.any fun other => locks.any fun lock =>
    (wholeKey lock.key).isNone && (LockTable.empty.take (lanes.locksOf other)).conflicts lock

/-- What a waiter waits on. -/
def before (lanes : OperationLanes String) (waiter : WaiterId) : List WaiterId :=
  lanes.active ++ (lanes.nested ++ lanes.waiting).takeWhile (· ≠ waiter)

/-- A person's call that is refused as it is admitted, or whose wait is over, has nothing of its own key in its way. -/
def unobstructed (start : DurableStart) (s : StartsState) : StartsEvent → Bool
  | .admits call =>
      match s.calls call with
      | some ⟨_, .start .person, _, _, _⟩ =>
          let locks := normalizeLocks start.locks
          !wholeInTheWay s.lanes.lanes locks s.lanes.lanes.occupants ||
            !ownInTheWay start s.lanes.lanes locks s.lanes.lanes.occupants
      | _ => true
  | .deadline call =>
      match s.calls call with
      | some ⟨_, _, .awaiting waiter, _, _⟩ =>
          !ownInTheWay start s.lanes.lanes (s.lanes.lanes.locksOf waiter) (before s.lanes.lanes waiter)
      | _ => true
  | _ => true

end StartsState

/-! ## What is kept -/

def DurableAnswer.Kept (start : DurableStart) (recorded : List String) : DurableAnswer → Prop
  | .returned operation => operation ∈ recorded
  | .busy blockedBy => start.Foreign blockedBy
  | .failed | .gone => True

def DurableStage.Kept (start : DurableStart) (recorded : List String) (lanes : OperationLanes String) :
    DurableStage → Prop
  | .awaiting waiter => waiter < lanes.admitted ∧ start.Foreign (StartsState.refusedBy lanes waiter)
  | .recorded _ operation _ | .holding _ operation => operation ∈ recorded
  | _ => True

structure DurableCall.Kept (start : DurableStart) (recorded : List String) (lanes : OperationLanes String)
    (call : DurableCall) : Prop where
  answer : ∀ answer, call.answer = some answer → answer.Kept start recorded
  timedOut : ∀ labels, call.timedOut = some labels → start.Foreign labels
  stage : call.stage.Kept start recorded lanes

/-- Lanes that go on from others. -/
structure LanesMove (before after : LaneWorld String) : Prop where
  coherent : after.Coherent
  admitted : before.lanes.admitted ≤ after.lanes.admitted
  names : ∀ id < before.lanes.admitted, NamesNothing (before.lanes.waiters id) (after.lanes.waiters id)

section

variable {start : DurableStart} {recorded recorded' : List String} {lanes lanes' : LaneWorld String}
  {call : DurableCall} {stage : DurableStage} {answer : DurableAnswer}

theorem foreign_nil : start.Foreign [] := fun _ member => absurd member not_mem_nil

/-- A waiter that names nothing of its key keeps to it. -/
theorem LanesMove.foreign (move : LanesMove lanes lanes') {waiter : WaiterId} (below : waiter < lanes.lanes.admitted)
    (foreign : start.Foreign (StartsState.refusedBy lanes.lanes waiter)) :
    start.Foreign (StartsState.refusedBy lanes'.lanes waiter) := by
  rw [StartsState.refusedBy]
  rcases move.names waiter below with same | none_
  · rw [same]
    exact foreign
  · split
    · rename_i error is
      rw [none_ error is]
      exact foreign_nil
    · exact foreign_nil

theorem LanesMove.refl (coherent : lanes.Coherent) : LanesMove lanes lanes :=
  ⟨coherent, le_rfl, fun _ _ => .inl rfl⟩

theorem LanesMove.step (event : LaneCall String) (coherent : lanes.Coherent) (step : lanes.step event = some lanes') :
    LanesMove lanes lanes' :=
  ⟨coherent.step step, LaneWorld.admitted_step coherent step, fun _ below => LaneWorld.namesNothing_step step below⟩

theorem LanesMove.trans {a b c : LaneWorld String} (h : LanesMove a b) (k : LanesMove b c) : LanesMove a c :=
  ⟨k.coherent, h.admitted.trans k.admitted,
    fun id below => (h.names id below).trans (k.names id (below.trans_le h.admitted))⟩

theorem LanesMove.cancel (coherent : lanes.Coherent) (waiter : WaiterId) : LanesMove lanes (lanes.cancel waiter) :=
  ⟨coherent.cancel waiter, (cancel_sound coherent.sound waiter).2.2.1.ge, fun id _ => unnamed_cancel _ waiter id⟩

theorem LanesMove.finishIn {s after : StartsState} {waiter : Option WaiterId} (coherent : s.lanes.Coherent)
    (finished : s.finishIn waiter = some after) :
    ∃ lanes, LanesMove s.lanes lanes ∧ after = { s with lanes } := by
  cases waiter with
  | none =>
    cases finished
    exact ⟨s.lanes, .refl coherent, rfl⟩
  | some waiter =>
    obtain ⟨lanes, step, rfl⟩ := Option.map_eq_some_iff.mp finished
    exact ⟨lanes, .step _ coherent step, rfl⟩

/-- The fiber that waits for its lanes. -/
theorem LanesMove.holdLanes (start : DurableStart) {s : StartsState} (coherent : s.lanes.Coherent) (id : String)
    (locks : List (LaneLock String)) (initiator : StartInitiator) :
    ∃ lanes, LanesMove s.lanes lanes ∧ s.lanes.lanes.admitted < lanes.lanes.admitted ∧
      (StartsState.holdLanes start s id locks initiator).2 = { s with lanes } := by
  have admits : LanesMove s.lanes (s.lanes.admitWaiter (StartsState.admission start id locks initiator) false) :=
    .step (.admitTicket _) coherent rfl
  have more := (admit_admitted coherent.sound (StartsState.admission start id locks initiator) false).1.admitted
  have below : s.lanes.lanes.admitted <
      (s.lanes.lanes.admitWaiter (StartsState.admission start id locks initiator) false).admitted := by
    rw [more]
    exact Nat.lt_succ_self _
  exact ⟨_, admits.trans (.step (.run s.lanes.lanes.admitted) admits.coherent (if_pos below)), below, rfl⟩

theorem DurableAnswer.Kept.mono (kept : answer.Kept start recorded) (more : ∀ id ∈ recorded, id ∈ recorded') :
    answer.Kept start recorded' := by
  cases answer with
  | returned operation => exact more _ kept
  | _ => exact kept

theorem DurableStage.Kept.mono (kept : stage.Kept start recorded lanes.lanes) (more : ∀ id ∈ recorded, id ∈ recorded')
    (move : LanesMove lanes lanes') : stage.Kept start recorded' lanes'.lanes := by
  cases stage with
  | awaiting waiter => exact ⟨kept.1.trans_le move.admitted, move.foreign kept.1 kept.2⟩
  | recorded waiter operation existing => exact more _ kept
  | holding waiter operation => exact more _ kept
  | _ => trivial

theorem DurableCall.Kept.mono (kept : call.Kept start recorded lanes.lanes) (more : ∀ id ∈ recorded, id ∈ recorded')
    (move : LanesMove lanes lanes') : call.Kept start recorded' lanes'.lanes :=
  ⟨fun answer is => (kept.answer answer is).mono more, kept.timedOut, kept.stage.mono more move⟩

theorem DurableCall.Kept.goes (kept : call.Kept start recorded lanes.lanes)
    (next : stage.Kept start recorded lanes.lanes) : ({ call with stage } : DurableCall).Kept start recorded lanes.lanes :=
  ⟨kept.answer, kept.timedOut, next⟩

theorem DurableCall.Kept.answered (kept : call.Kept start recorded lanes.lanes)
    (next : stage.Kept start recorded lanes.lanes) (told : answer.Kept start recorded) :
    ({ call with stage, answer := StartsState.answered call answer } : DurableCall).Kept start recorded lanes.lanes := by
  refine ⟨fun other is => ?_, kept.timedOut, next⟩
  rcases Option.or_eq_some_iff.mp is with earlier | ⟨-, now⟩
  · exact kept.answer other earlier
  · rw [← Option.some.inj now]
    exact told

theorem DurableCall.Kept.announced (kept : call.Kept start recorded lanes.lanes) (mine : operation ∈ recorded)
    (waiter : Option WaiterId) : ({ call with
      stage := match waiter with
        | some waiter => .holding waiter operation
        | none => .ended
      answer := StartsState.answered call (.returned operation) } : DurableCall).Kept start recorded lanes.lanes := by
  refine kept.answered ?_ mine
  cases waiter with
  | none => trivial
  | some waiter => exact mine

end

namespace StartsState

structure Kept (start : DurableStart) (s : StartsState) : Prop where
  coherent : s.lanes.Coherent
  rows : s.rows.map (·.id) = s.recorded
  once : s.recorded.length ≤ 1
  calls : ∀ index call, s.calls index = some call → call.Kept start s.recorded s.lanes.lanes
  turns : ∀ index turn, s.turns index = some turn → turn.id ∈ s.recorded
  dispatches : ∀ fiber ∈ s.dispatches, fiber.id ∈ s.recorded ∧ (fiber.stage = .noting → fiber.id ∈ s.workflows)
  workflows : ∀ id ∈ s.workflows, id ∈ s.recorded
  executed : ∀ row ∈ s.rows, row.executed = true → row.id ∈ s.workflows

section

variable {start : DurableStart} {s s' : StartsState}

variable {id : String}

theorem mem_of_rowIn {state : DurableState} (rows : s.rows.map (·.id) = s.recorded)
    (is : s.rowIn id state = true) : id ∈ s.recorded := by
  obtain ⟨row, member, same⟩ := any_eq_true.mp is
  rw [Bool.and_eq_true, decide_eq_true_eq, decide_eq_true_eq] at same
  rw [← rows, ← same.1]
  exact mem_map_of_mem member

theorem Kept.row_mem (kept : s.Kept start) {row : DurableRow} (member : row ∈ s.rows) : row.id ∈ s.recorded := by
  rw [← kept.rows]
  exact mem_map_of_mem member

variable {call : DurableCall}

theorem Kept.setCall (kept : s.Kept start) (index : Nat) (its : call.Kept start s.recorded s.lanes.lanes) :
    (s.setCall index call).Kept start := by
  refine { kept with calls := fun other value is => ?_ }
  by_cases same : other = index
  · subst same
    simp only [StartsState.setCall, Function.update_self] at is
    exact Option.some.inj is ▸ its
  · simp only [StartsState.setCall, Function.update_of_ne same] at is
    exact kept.calls other value is

theorem Kept.setTurn (kept : s.Kept start) (index : Nat) (turn : DurableTurn) (its : turn.id ∈ s.recorded) :
    (s.setTurn index turn).Kept start := by
  refine { kept with turns := fun other value is => ?_ }
  by_cases same : other = index
  · subst same
    simp only [StartsState.setTurn, Function.update_self] at is
    exact Option.some.inj is ▸ its
  · simp only [StartsState.setTurn, Function.update_of_ne same] at is
    exact kept.turns other value is

theorem Kept.withPlaces (kept : s.Kept start) (places : List (String × Nat)) :
    ({ s with places } : StartsState).Kept start :=
  { kept with }

variable {turn : DurableTurn}

theorem Kept.endTurn (kept : s.Kept start) (index : Nat) (its : turn.id ∈ s.recorded) :
    (s.endTurn index turn).Kept start :=
  (kept.setTurn index { turn with stage := .ended } its).withPlaces _

theorem Kept.forkTurn (kept : s.Kept start) (turn : DurableTurn) (its : turn.id ∈ s.recorded) :
    (s.forkTurn turn).Kept start :=
  { kept.setTurn s.nextTurn turn its with }

theorem Kept.withLanes (kept : s.Kept start) {lanes : LaneWorld String} (move : LanesMove s.lanes lanes) :
    ({ s with lanes } : StartsState).Kept start :=
  { kept with
    coherent := move.coherent
    calls := fun index call is => (kept.calls index call is).mono (fun _ member => member) move }

theorem Kept.setRow (kept : s.Kept start) (id : String) (change : DurableRow → DurableRow)
    (same : ∀ row, (change row).id = row.id)
    (noted : ∀ row, (change row).executed = true → row.executed = true ∨ id ∈ s.workflows) :
    (s.setRow id change).Kept start := by
  refine { kept with
    rows := ?_
    executed := fun row member is => ?_ }
  · rw [StartsState.setRow, map_map, ← kept.rows]
    refine map_congr_left fun row _ => ?_
    rw [Function.comp_apply]
    split
    · exact same row
    · rfl
  obtain ⟨earlier, there, rfl⟩ := mem_map.mp member
  split at is
  · rename_i its
    rw [if_pos its, same]
    rcases noted earlier is with before | now
    · exact kept.executed earlier there before
    · exact its ▸ now
  · rename_i not
    rw [if_neg not]
    exact kept.executed earlier there is

theorem Kept.setState (kept : s.Kept start) (id : String) (state : DurableState) :
    (s.setRow id fun row => { row with state }).Kept start :=
  kept.setRow id _ (fun _ => rfl) fun _ is => .inl is

theorem Kept.dispatchSoon (kept : s.Kept start) (its : id ∈ s.recorded) : (s.dispatchSoon id).Kept start := by
  refine { kept with dispatches := fun fiber member => ?_ }
  rcases mem_append.mp member with before | new
  · exact kept.dispatches fiber before
  · obtain rfl := mem_singleton.mp new
    exact ⟨its, nofun⟩

theorem Kept.insertIgnore (kept : s.Kept start) (id : String) (state : DurableState) :
    (s.insertIgnore { id, state }).2.Kept start ∧
      ((s.insertIgnore { id, state }).1 = true → id ∈ (s.insertIgnore { id, state }).2.recorded) ∧
        (s.insertIgnore { id, state }).2.lanes = s.lanes ∧
          ∀ other ∈ s.recorded, other ∈ (s.insertIgnore { id, state }).2.recorded := by
  unfold StartsState.insertIgnore
  split
  · rename_i empty
    have none_ : s.recorded = [] := by rw [← kept.rows, isEmpty_iff.mp empty, map_nil]
    have more : ∀ other ∈ s.recorded, other ∈ s.recorded ++ [id] := fun _ => mem_append_left _
    refine ⟨{ kept with
      rows := by rw [none_]; rfl
      once := by rw [none_]; exact le_rfl
      calls := fun index call is => (kept.calls index call is).mono more (.refl kept.coherent)
      turns := fun index turn is => more _ (kept.turns index turn is)
      dispatches := fun fiber member => ⟨more _ (kept.dispatches fiber member).1, (kept.dispatches fiber member).2⟩
      workflows := fun other member => more _ (kept.workflows other member)
      executed := fun row member is => ?_ }, fun _ => mem_append_right _ (mem_singleton_self id), rfl, more⟩
    obtain rfl := mem_singleton.mp member
    cases is
  · exact ⟨kept, nofun, rfl, fun _ member => member⟩

/-! ## Admissions -/

variable {lanes : OperationLanes String}

theorem whole_of_personWhenBusy {reasons : List (WaitReason String String)}
    {locks : List (LaneLock String)} {others : List WaiterId} (refuses : personWhenBusy reasons = true)
    (each : ∀ reason ∈ reasons, ∃ other ∈ others, reason.id = (lanes.waiters other).label ∧
      InTheWay lanes locks other reason.key) : wholeInTheWay lanes locks others = true := by
  obtain ⟨reason, member, whole⟩ := any_eq_true.mp refuses
  obtain ⟨other, there, -, lock, among, key, clash⟩ := each reason member
  refine any_eq_true.mpr ⟨other, there, any_eq_true.mpr ⟨lock, among, ?_⟩⟩
  rw [Bool.and_eq_true]
  exact ⟨key ▸ whole, clash⟩

theorem foreign_of_reasons {reasons : List (WaitReason String String)}
    {locks : List (LaneLock String)} {others : List WaiterId} (free : ownInTheWay start lanes locks others = false)
    (each : ∀ reason ∈ reasons, ∃ other ∈ others, reason.id = (lanes.waiters other).label ∧
      InTheWay lanes locks other reason.key) :
    start.Foreign (reasons.map WaitReason.id).eraseDups := by
  intro label listed
  obtain ⟨reason, member, rfl⟩ := mem_map.mp (mem_eraseDups.mp listed)
  obtain ⟨other, there, is, lock, among, -, clash⟩ := each reason member
  have not := any_eq_false.mp free other there
  rw [Bool.and_eq_true, not_and] at not
  rw [is]
  cases own : start.isOwn (lanes.waiters other).label with
  | false => rfl
  | true => exact absurd (any_eq_true.mpr ⟨lock, among, clash⟩) (not own)

/-- An admission that meets nothing of its key where it is refused names nothing of it. -/
theorem foreign_holdLanes (start : DurableStart) (coherent : s.lanes.Coherent) (id : String) (initiator : StartInitiator)
    (free : initiator = .person →
      wholeInTheWay s.lanes.lanes (normalizeLocks start.locks) s.lanes.lanes.occupants = false ∨
        ownInTheWay start s.lanes.lanes (normalizeLocks start.locks) s.lanes.lanes.occupants = false) :
    start.Foreign (refusedBy (holdLanes start s id start.locks initiator).2.lanes.lanes s.lanes.lanes.admitted) := by
  change start.Foreign (refusedBy (s.lanes.lanes.admitWaiter (admission start id start.locks initiator) false)
    s.lanes.lanes.admitted)
  unfold refusedBy
  split
  · rename_i error refused
    cases named : error.blockedBy with
    | none => exact foreign_nil
    | some names =>
      obtain ⟨reasons, refuses, rfl, each⟩ :=
        names_admitWaiter coherent.sound (rfl : _ = AdmissionLocks.known start.locks) refused named
      cases initiator with
      | system => exact refuses.elim
      | person =>
        obtain ⟨asked, yes⟩ := refuses
        have whole := whole_of_personWhenBusy yes each
        rcases free rfl with without | without
        · exact absurd (without.symm.trans whole) nofun
        · exact foreign_of_reasons without each
  · exact foreign_nil

theorem foreign_waitingOn {waiter : WaiterId}
    (free : ownInTheWay start lanes (lanes.locksOf waiter) (before lanes waiter) = false) :
    start.Foreign (waitingOn lanes waiter) := by
  unfold waitingOn
  dsimp only
  split
  · split
    · exact foreign_nil
    · rename_i locks is
      have locksIs : lanes.locksOf waiter = locks := by rw [locksOf, is]; rfl
      rw [locksIs] at free
      exact foreign_of_reasons free fun reason member => inTheWay_of_explainWait member
  · exact foreign_nil

/-! ## Calls -/

variable {waiter : Option WaiterId}

theorem Kept.finishIn (kept : s.Kept start) (finished : s.finishIn waiter = some s') :
    s'.Kept start ∧ s'.recorded = s.recorded ∧ s'.calls = s.calls ∧ LanesMove s.lanes s'.lanes := by
  obtain ⟨lanes, move, rfl⟩ := LanesMove.finishIn kept.coherent finished
  exact ⟨kept.withLanes move, rfl, rfl, move⟩

variable {index : Nat}

/-- A call that is over once its lanes are given back. -/
theorem Kept.finishCall (kept : s.Kept start) (done : (s.finishIn waiter).map (fun s => s.setCall index call) = some s')
    (its : call.Kept start s.recorded s.lanes.lanes) : s'.Kept start := by
  obtain ⟨after, finished, rfl⟩ := Option.map_eq_some_iff.mp done
  obtain ⟨kept', same, -, move⟩ := kept.finishIn finished
  exact kept'.setCall index (its.mono (fun _ member => same ▸ member) move)

variable {event : StartsEvent}

theorem Kept.callNext (kept : s.Kept start) (is : s.calls index = some call) (free : s.unobstructed start event = true)
    (at_ : ∀ other, event = .admits other ∨ event = .deadline other → other = index)
    (next : s.callNext start index call event = some s') : s'.Kept start := by
  have its := kept.calls index call is
  have fails : ({ call with stage := .ended, answer := answered call .failed } : DurableCall).Kept start
      s.recorded s.lanes.lanes := its.answered trivial trivial
  cases event with
  | lookup other =>
    simp only [callNext] at next
    split at next
    · split at next
      · rename_i row head
        cases next
        exact kept.setCall index (its.answered trivial (kept.row_mem (mem_of_mem_head? head)))
      · cases next
        exact kept.setCall index (its.goes trivial)
    · cases next
  | closed other =>
    obtain ⟨-, now⟩ := Option.ite_none_right_eq_some.mp next
    cases now
    exact kept.setCall index (its.answered trivial foreign_nil)
  | admits other =>
    simp only [callNext] at next
    split at next
    · rename_i initiator stage how
      split at next
      · cases next
      split at next
      · cases next
        exact kept.setCall index (its.goes trivial)
      cases next
      obtain ⟨lanes, move, below, moved⟩ :=
        LanesMove.holdLanes start kept.coherent call.id start.locks initiator
      have foreign := foreign_holdLanes start kept.coherent call.id initiator fun person => by
        obtain rfl := at_ other (.inl rfl)
        obtain ⟨id, ask, stage', answer, timedOut⟩ := call
        simp only at how
        subst how person
        simpa only [unobstructed, is, Bool.or_eq_true, Bool.not_eq_true'] using free
      rw [moved] at foreign ⊢
      refine (kept.withLanes move).setCall index ?_
      exact (its.mono (fun _ member => member) move).goes ⟨below, foreign⟩
    · cases next
  | resume other =>
    simp only [callNext] at next
    split at next
    · rename_i waiter stage
      obtain ⟨lanes, step, rfl⟩ := Option.map_eq_some_iff.mp next
      have move := LanesMove.step _ kept.coherent step
      have its' := its.mono (fun _ member => member) move
      split
      · exact (kept.withLanes move).setCall index (its'.goes trivial)
      refine (kept.withLanes move).setCall index (its'.answered trivial ?_)
      have waits := its.stage
      rw [stage] at waits
      cases over_ : call.timedOut with
      | none => exact waits.2
      | some labels => exact its.timedOut labels over_
    · cases next
  | deadline other =>
    simp only [callNext] at next
    split at next
    · rename_i waiter stage how
      cases next
      obtain rfl := at_ other (.inr rfl)
      have move := LanesMove.cancel kept.coherent waiter
      have its' := its.mono (fun _ member => member) move
      refine (kept.withLanes move).setCall other ⟨its'.answer, fun labels told => ?_, its'.stage⟩
      cases told
      refine foreign_waitingOn ?_
      obtain ⟨id, ask, stage', answer, timedOut⟩ := call
      simp only at stage
      subst stage
      simpa only [unobstructed, is, Bool.not_eq_true'] using free
    · cases next
  | record other lost =>
    simp only [callNext] at next
    split at next
    · rename_i waiter stage
      generalize (if call.ask = .queue then DurableState.waiting else .running) = state at next
      obtain ⟨kept', mine, same, more⟩ := kept.insertIgnore call.id state
      have its' := its.mono more (.refl kept.coherent)
      rw [← same] at its'
      split at next
      · exact kept'.finishCall next (its'.answered trivial trivial)
      split at next
      · rename_i inserted
        cases next
        exact kept'.setCall index (its'.goes (mine inserted))
      · cases next
        exact kept'.setCall index (its'.goes trivial)
    · cases next
  | select other =>
    simp only [callNext] at next
    split at next
    · split at next
      · rename_i row head
        cases next
        exact kept.setCall index (its.goes (kept.row_mem (mem_of_mem_head? head)))
      · exact kept.finishCall next fails
    · cases next
  | announce other =>
    simp only [callNext] at next
    split at next
    · rename_i waiter operation existing stage
      cases next
      have mine : operation ∈ s.recorded := by
        have kept' := its.stage
        rw [stage] at kept'
        exact kept'
      have its' := its.announced mine
      split
      · exact kept.setCall index (its' waiter)
      · split
        · exact (kept.forkTurn { id := operation, locks := start.locks, stage := .opening } mine).setCall
            index (its' waiter)
        · exact (kept.dispatchSoon mine).setCall index (its' waiter)
    · cases next
  | release other =>
    simp only [callNext] at next
    split at next
    · split at next
      · cases next
      · exact kept.finishCall next (its.goes trivial)
    · cases next
  | fail other =>
    simp only [callNext] at next
    split at next
    · cases next
      exact kept.setCall index fails
    · exact kept.finishCall next fails
    · exact kept.finishCall next fails
    · cases next
  | interrupt other =>
    simp only [callNext] at next
    split at next
    · cases next
    have gone : ({ call with answer := some .gone } : DurableCall).Kept start s.recorded s.lanes.lanes :=
      ⟨fun answer told => Option.some.inj told ▸ trivial, its.timedOut, its.stage⟩
    split at next
    · rename_i waiter stage
      cases next
      have move := LanesMove.cancel kept.coherent waiter
      exact (kept.withLanes move).setCall index (gone.mono (fun _ member => member) move)
    all_goals
      cases next
      first
        | exact kept.setCall index gone
        | exact kept.setCall index (gone.goes trivial)
  | _ => cases next

/-! ## Turns -/

/-- A turn that is over once its lanes are given back. -/
theorem Kept.finishTurn (kept : s.Kept start)
    (done : (s.finishIn waiter).map (fun s => s.endTurn index turn) = some s') (its : turn.id ∈ s.recorded) :
    s'.Kept start := by
  obtain ⟨after, finished, rfl⟩ := Option.map_eq_some_iff.mp done
  obtain ⟨kept', same, -⟩ := kept.finishIn finished
  exact kept'.endTurn index (same ▸ its)

theorem Kept.turnNext (kept : s.Kept start) (is : s.turns index = some turn)
    (next : s.turnNext start index turn event = some s') : s'.Kept start := by
  have its := kept.turns index turn is
  cases event with
  | openTurn other =>
    obtain ⟨-, now⟩ := Option.ite_none_right_eq_some.mp next
    cases now
    exact kept.setTurn index _ its
  | place other =>
    obtain ⟨-, now⟩ := Option.ite_none_right_eq_some.mp next
    split at now
    · cases now
      exact kept.setTurn index _ its
    · cases now
      exact (kept.setTurn index { turn with stage := .admitting } its).withPlaces _
  | admitTurn other =>
    obtain ⟨-, now⟩ := Option.ite_none_right_eq_some.mp next
    split at now
    · cases now
      exact kept.setTurn index _ its
    · cases now
      obtain ⟨lanes, move, -, moved⟩ :=
        LanesMove.holdLanes start kept.coherent turn.id turn.locks .system
      rw [moved]
      exact (kept.withLanes move).setTurn index _ its
  | notice other =>
    simp only [turnNext] at next
    split at next
    · rename_i waiter stage
      obtain ⟨-, now⟩ := Option.ite_none_right_eq_some.mp next
      cases now
      exact kept.withLanes (.cancel kept.coherent waiter)
    · cases next
  | resumeTurn other =>
    simp only [turnNext] at next
    split at next
    · obtain ⟨lanes, step, rfl⟩ := Option.map_eq_some_iff.mp next
      have kept' := kept.withLanes (.step _ kept.coherent step)
      split
      · exact kept'.setTurn index _ its
      · exact kept'.endTurn index its
    · cases next
  | unready other =>
    simp only [turnNext] at next
    split at next
    · exact kept.finishTurn next its
    · cases next
  | startTurn other =>
    simp only [turnNext] at next
    split at next
    · split at next
      · cases next
        exact ((kept.setState turn.id .running).dispatchSoon its).setTurn index _ its
      · exact kept.finishTurn next its
    · cases next
  | releaseTurn other =>
    simp only [turnNext] at next
    split at next
    · split at next
      · cases next
      · exact kept.finishTurn next its
    · cases next
  | _ => cases next

/-! ## Dispatches -/

theorem Kept.withDispatches (kept : s.Kept start) {dispatches : List DurableDispatch}
    (each : ∀ fiber ∈ dispatches, fiber.id ∈ s.recorded ∧ (fiber.stage = .noting → fiber.id ∈ s.workflows)) :
    ({ s with dispatches } : StartsState).Kept start :=
  { kept with dispatches := each }

theorem Kept.dropDispatch (kept : s.Kept start) (index : Nat) :
    ({ s with dispatches := s.dispatches.eraseIdx index } : StartsState).Kept start :=
  kept.withDispatches fun fiber member => kept.dispatches fiber (mem_of_mem_eraseIdx member)

theorem Kept.dispatchNext (kept : s.Kept start) {fiber : DurableDispatch}
    (there : s.dispatches[index]? = some fiber) : (s.dispatchNext index fiber).Kept start := by
  obtain ⟨its, noted⟩ := kept.dispatches fiber (mem_of_getElem? there)
  unfold StartsState.dispatchNext
  split
  · split
    · refine kept.withDispatches fun other member => ?_
      rcases mem_or_eq_of_mem_set member with before | rfl
      · exact kept.dispatches other before
      · exact ⟨its, nofun⟩
    · exact kept.dropDispatch index
  · have more : ∀ id ∈ s.workflows, id ∈ s.workflows ++ [fiber.id] := fun _ => mem_append_left _
    refine { kept with
      dispatches := fun other member => ?_
      workflows := fun id member => ?_
      executed := fun row member is => more _ (kept.executed row member is) }
    · rcases mem_or_eq_of_mem_set member with before | rfl
      · exact ⟨(kept.dispatches other before).1, fun noting => more _ ((kept.dispatches other before).2 noting)⟩
      · exact ⟨its, fun _ => mem_append_right _ (mem_singleton_self _)⟩
    · rcases mem_append.mp member with before | new
      · exact kept.workflows id before
      · exact mem_singleton.mp new ▸ its
  · rename_i stage
    have kept' := kept.setRow fiber.id (fun row => { row with executed := true }) (fun _ => rfl)
      fun _ _ => .inr (noted stage)
    exact kept'.dropDispatch index

/-! ## Every step -/

theorem crashed_kept {recorded : List String} (its : call.Kept start recorded lanes) :
    (crashed call).Kept start recorded (LaneWorld.initial hearthLaneOptions).lanes := by
  refine ⟨fun answer is => ?_, its.timedOut, trivial⟩
  rcases Option.or_eq_some_iff.mp is with earlier | ⟨-, now⟩
  · exact its.answer answer earlier
  · exact Option.some.inj now ▸ trivial

theorem Kept.next (kept : s.Kept start) (free : s.unobstructed start event = true)
    (next : StartsState.next start s event = some s') : s'.Kept start := by
  cases event with
  | ask call id how =>
    obtain ⟨-, now⟩ := Option.ite_none_right_eq_some.mp next
    cases now
    refine kept.setCall call ⟨nofun, nofun, ?_⟩
    dsimp only
    split
    · trivial
    · trivial
  | lookup call | closed call | resume call | record call lost | select call | announce call | release call
  | fail call | interrupt call =>
    obtain ⟨value, is, now⟩ := Option.bind_eq_some_iff.mp next
    exact kept.callNext is free (fun _ which => by rcases which with which | which <;> exact absurd which nofun) now
  | admits call =>
    obtain ⟨value, is, now⟩ := Option.bind_eq_some_iff.mp next
    refine kept.callNext is free (fun other which => ?_) now
    rcases which with which | which
    · exact (StartsEvent.admits.inj which).symm
    · cases which
  | deadline call =>
    obtain ⟨value, is, now⟩ := Option.bind_eq_some_iff.mp next
    refine kept.callNext is free (fun other which => ?_) now
    rcases which with which | which
    · cases which
    · exact (StartsEvent.deadline.inj which).symm
  | openTurn turn | place turn | admitTurn turn | notice turn | resumeTurn turn | unready turn | startTurn turn
  | releaseTurn turn =>
    obtain ⟨value, is, now⟩ := Option.bind_eq_some_iff.mp next
    exact kept.turnNext is now
  | dispatch index =>
    obtain ⟨fiber, there, rfl⟩ := Option.map_eq_some_iff.mp next
    exact kept.dispatchNext there
  | dispatchFails index =>
    cases next
    exact kept.dropDispatch index
  | ends id outcome =>
    obtain ⟨-, now⟩ := Option.ite_none_right_eq_some.mp next
    cases now
    exact kept.setState id outcome
  | cancelWaiting id =>
    obtain ⟨-, now⟩ := Option.ite_none_right_eq_some.mp next
    have kept' := kept.setState id .cancelled
    split at now
    · rename_i waiter _
      cases now
      exact kept'.withLanes (.cancel kept'.coherent waiter)
    · cases now
      exact kept'
  | sweep =>
    cases next
    refine kept.withDispatches fun fiber member => ?_
    rcases mem_append.mp member with before | new
    · exact kept.dispatches fiber before
    · obtain ⟨id, undone, rfl⟩ := mem_map.mp new
      obtain ⟨row, listed, rfl⟩ := mem_map.mp undone
      exact ⟨kept.row_mem (mem_of_mem_filter listed), nofun⟩
  | readmits locks =>
    simp only [StartsState.next] at next
    split at next
    · rename_i row found
      cases next
      exact kept.forkTurn _ (kept.row_mem (mem_of_find?_eq_some found))
    · cases next
  | restart =>
    cases next
    refine { kept with
      coherent := LaneWorld.initial_coherent hearthLaneOptions
      calls := fun index call is => ?_
      turns := nofun
      dispatches := nofun }
    obtain ⟨earlier, was, rfl⟩ := Option.map_eq_some_iff.mp is
    exact crashed_kept (kept.calls index earlier was)
  | restore id locks =>
    obtain ⟨⟨-, running, -⟩, now⟩ := Option.ite_none_right_eq_some.mp next
    cases now
    obtain ⟨lanes, move, -, moved⟩ := LanesMove.holdLanes start kept.coherent id locks .system
    rw [moved]
    exact (kept.withLanes move).forkTurn _ (mem_of_rowIn kept.rows running)
  | openLanes =>
    cases next
    exact { kept with }
  | others call =>
    obtain ⟨-, now⟩ := Option.ite_none_right_eq_some.mp next
    obtain ⟨lanes, step, rfl⟩ := Option.map_eq_some_iff.mp now
    exact kept.withLanes (.step _ kept.coherent step)

theorem kept_initial : ({} : StartsState).Kept start where
  coherent := LaneWorld.initial_coherent hearthLaneOptions
  rows := rfl
  once := Nat.zero_le 1
  calls := nofun
  turns := nofun
  dispatches := nofun
  workflows := nofun
  executed := nofun

theorem Kept.recorded_eq (kept : s.Kept start) (member : id ∈ s.recorded) : s.recorded = [id] := by
  have once := kept.once
  match recorded : s.recorded, member with
  | [only], member => rw [mem_singleton.mp member]
  | _ :: _ :: _, _ =>
    rw [recorded] at once
    exact absurd once (by simp)

theorem Kept.startsOnce (kept : s.Kept start) : StartsOnce start s where
  once := kept.once
  rows := kept.rows
  returned := fun call value operation is told => kept.recorded_eq ((kept.calls call value is).answer _ told)
  dispatched := fun fiber member => kept.recorded_eq (kept.dispatches fiber member).1
  workflows := fun operation member => kept.recorded_eq (kept.workflows operation member)
  started := fun row member running => by
    cases executed : row.executed with
    | true => exact .inl (kept.executed row member executed)
    | false =>
      refine .inr (mem_map_of_mem (mem_filter.mpr ⟨member, ?_⟩))
      rw [running, executed]
      rfl
  busy := fun call value blockedBy is told => (kept.calls call value is).answer _ told

end

end StartsState

/-! ## Every run -/

/-- As long as no call meets its own key where it is refused or given up, the calls under one key start one operation
    between them, and none is refused for it. -/
theorem starts_once (start : DurableStart) (s : StartsState)
    (reached : ((startsSystem start).restrict fun s event => s.unobstructed start event = true).Reachable s) :
    s.StartsOnce start := by
  have kept : s.Kept start := by
    refine reached.invariant (fun s is => ?_) fun s event s' kept step => kept.next step.1 step.2
    rw [show s = {} from is]
    exact StartsState.kept_initial
  exact kept.startsOnce

/-- The deletion of a game server (`resource-deletion.server.ts:146-153`), whose calls drew two IDs. -/
def deleteServer : DurableStart where
  kind := "resource.delete"
  locks := withWholes [exclusive "instance:relay/server"]
  isOwn label := label ∈ ["resource.delete#first", "resource.delete#second"]

/-- Someone deletes it, and asks again once that is recorded, or has its lanes. -/
def asksAgain : List StartsEvent :=
  [.ask 0 "first" (.start .person), .lookup 0, .admits 0, .resume 0, .record 0 false, .announce 0,
    .ask 1 "second" (.start .person), .lookup 1, .dispatch 0, .dispatch 0, .dispatch 0]

def givenFirst (s : StartsState) : Bool := (s.calls 1).any (·.answer = some (.returned "first"))

theorem starts_once_asksAgain :
    (runAll (fun s event => if StartsState.unobstructed deleteServer s event = true
      then StartsState.next deleteServer s event else none) {} asksAgain).any givenFirst = true ∧
    ∀ s, runAll (fun s event => if StartsState.unobstructed deleteServer s event = true
      then StartsState.next deleteServer s event else none) {} asksAgain = some s →
        StartsState.StartsOnce deleteServer s := by
  refine ⟨by decide, fun s ran => ?_⟩
  exact starts_once deleteServer s ⟨_, _, rfl, System.run_of_guardedRunAll ran⟩

/-- Both calls look for it before either is recorded. -/
def bothLook : List StartsEvent :=
  [.ask 0 "first" (.start .person), .lookup 0, .ask 1 "second" (.start .person), .lookup 1,
    .admits 0, .resume 0, .record 0 false, .announce 0, .admits 1, .resume 1]

/-- The second is refused for the operation of its own key. -/
def refusedForFirst (s : StartsState) : Bool :=
  (s.calls 1).any (·.answer = some (.busy ["resource.delete#first"])) && s.recorded = ["first"]

theorem bothLook_refused : (runAll (StartsState.next deleteServer) {} bothLook).any refusedForFirst = true := by
  decide

theorem start_refused_for_itself :
    ¬ ∀ start s, (startsSystem start).Reachable s → s.StartsOnce start := by
  intro all
  have ends := bothLook_refused
  rw [Option.any_eq_true] at ends
  rcases ends with ⟨s, ran, ends⟩
  have once := all deleteServer s ⟨_, _, rfl, System.run_of_runAll ran⟩
  rw [refusedForFirst, Bool.and_eq_true, Option.any_eq_true] at ends
  rcases ends with ⟨⟨call, is, told⟩, -⟩
  have foreign := once.busy 1 call _ is (of_decide_eq_true told) "resource.delete#first" (mem_singleton_self _)
  cases foreign

end Kiln.Hearth
