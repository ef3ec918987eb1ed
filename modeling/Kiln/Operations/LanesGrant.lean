import Mathlib
import Kiln.Operations.LanesInvariant

/-!
# What granting does

`#grant` keeps every waiter in its place, keeps the history in order, and leaves nothing
waiting that could start: after it, each operation left in line has an obstacle.
-/

set_option linter.unusedSectionVars false

namespace Kiln.Operations
open Kiln.Lib List

namespace OperationLanes

variable {κ : Type} [LinearOrder κ]

/-! ## The history -/

/-- What must have happened before an ordinary operation is granted: each ordinary one admitted before it has ended, or
its locks are known and don't conflict. -/
def GrantInOrder (waiters : WaiterId → Waiter κ) (id : WaiterId) (earlier : List LaneEvent) :
    Prop :=
  .known id ∈ earlier ∧ ((waiters id).nested = false → ∀ ahead < id, (waiters ahead).nested = false →
      .ended ahead ∈ earlier ∨ (.known ahead ∈ earlier ∧
        ¬ Conflict ((waiters ahead).locks.getD []) ((waiters id).locks.getD [])))

/-- Every grant of a history, newest first, was in order. -/
def HistoryInOrder (waiters : WaiterId → Waiter κ) : List LaneEvent → Prop
  | [] => True
  | .granted id :: earlier => GrantInOrder waiters id earlier ∧ HistoryInOrder waiters earlier
  | .known _ :: earlier => HistoryInOrder waiters earlier
  | .ended _ :: earlier => HistoryInOrder waiters earlier

variable {id : WaiterId}

theorem HistoryInOrder.split {waiters : WaiterId → Waiter κ} {later earlier : List LaneEvent}
    (h : HistoryInOrder waiters (later ++ .granted id :: earlier)) :
    GrantInOrder waiters id earlier := by
  induction later with
  | nil => exact h.1
  | cons event later ih =>
    cases event with
    | known _ => exact ih h
    | granted _ => exact ih h.2
    | ended _ => exact ih h

/-- The history says what happened to the waiters. -/
structure Chronicled (lanes : OperationLanes κ) : Prop where
  ended : ∀ id, .ended id ∈ lanes.history ↔ id < lanes.admitted ∧ (lanes.waiters id).state = .done
  known : ∀ id, .known id ∈ lanes.history ↔ (lanes.waiters id).locks.isSome = true
  granted : ∀ id, (lanes.waiters id).state = .granted ∨ (lanes.waiters id).state = .running →
    .granted id ∈ lanes.history
  inOrder : HistoryInOrder lanes.waiters lanes.history

theorem HistoryInOrder.evolves {before after : WaiterId → Waiter κ} {history : List LaneEvent}
    {admitted : Nat} (keeps : ∀ id < admitted, Keeps (before id) (after id))
    (bound : ∀ id, .known id ∈ history → id < admitted ∧ (before id).locks.isSome = true)
    (h : HistoryInOrder before history) : HistoryInOrder after history := by
  induction history with
  | nil => trivial
  | cons event earlier ih =>
    have boundEarlier : ∀ id, .known id ∈ earlier → id < admitted ∧ (before id).locks.isSome = true :=
      fun id member => bound id (mem_cons_of_mem _ member)
    have stay : ∀ id, .known id ∈ earlier → (after id).locks = (before id).locks := by
      intro id member
      obtain ⟨below, some⟩ := boundEarlier id member
      obtain ⟨locks, found⟩ := Option.isSome_iff_exists.mp some
      rw [found, (keeps id below).locks locks found]
    cases event with
    | known _ => exact ih boundEarlier h
    | ended _ => exact ih boundEarlier h
    | granted id =>
      refine ⟨⟨h.1.1, fun ordinary ahead less ordinaryAhead => ?_⟩, ih boundEarlier h.2⟩
      have below := (boundEarlier id h.1.1).1
      rw [(keeps id below).nested] at ordinary
      rw [(keeps ahead (less.trans below)).nested] at ordinaryAhead
      refine (h.1.2 ordinary ahead less ordinaryAhead).imp_right fun ⟨member, apart⟩ => ?_
      rw [stay ahead member, stay id h.1.1]
      exact ⟨member, apart⟩

variable {before : OperationLanes κ}

theorem Chronicled.stillInOrder (h : Chronicled before) (after : OperationLanes κ)
    (keeps : ∀ id < before.admitted, Keeps (before.waiters id) (after.waiters id))
    (unknown : ∀ id, before.admitted ≤ id → (before.waiters id).locks = none) :
    HistoryInOrder after.waiters before.history := by
  refine h.inOrder.evolves keeps fun id member => ?_
  have known := (h.known id).mp member
  refine ⟨?_, known⟩
  by_contra above
  rw [unknown id (not_lt.mp above)] at known
  simp at known

/-! ## Moves of the parts -/

theorem evolves_of_waiters {after : OperationLanes κ} (waiters : after.waiters = before.waiters)
    (admitted : after.admitted = before.admitted) :
    Evolves before after := by
  refine ⟨admitted.ge, fun id _ => ?_⟩
  rw [waiters]
  exact .refl _

variable {lanes : OperationLanes κ}

theorem evolves_conclude (waiting : (lanes.waiters id).state = .waiting) (how : Settled) :
    Evolves lanes (lanes.conclude id how) := by
  refine ⟨le_rfl, fun other _ => ?_⟩
  rw [conclude_waiters]
  split
  · rename_i same; subst same
    exact ⟨⟨rfl, rfl, rfl, rfl, fun _ h => h⟩, fun h => h, .inr (.inr ⟨.inl waiting, rfl⟩), by simp [waiting]⟩
  · exact .refl _

theorem evolves_start (waiting : (lanes.waiters id).state = .waiting) :
    Evolves lanes (lanes.start id) := by
  refine ⟨le_rfl, fun other _ => ?_⟩
  rw [start_waiters]
  split
  · rename_i same; subst same
    exact ⟨⟨rfl, rfl, rfl, rfl, fun _ h => h⟩, fun h => h, .inr (.inl ⟨waiting, rfl⟩), by simp [waiting]⟩
  · exact .refl _

/-! ## The history of the parts -/

theorem Chronicled.congr {lanes' : OperationLanes κ} (h : Chronicled lanes)
    (waiters : lanes'.waiters = lanes.waiters) (history : lanes'.history = lanes.history)
    (admitted : lanes'.admitted = lanes.admitted) : Chronicled lanes' := by
  obtain ⟨_, _, _, _, _, _, _, _, _, _, _, _, _, _⟩ := lanes'
  subst waiters history admitted
  exact ⟨h.ended, h.known, h.granted, h.inOrder⟩

variable {batch dropped : List WaiterId}

theorem Chronicled.conclude (h : Chronicled lanes) (placed : Placed batch dropped lanes)
    (waiting : (lanes.waiters id).state = .waiting) (how : Settled) :
    Chronicled (lanes.conclude id how) := by
  have below : id < lanes.admitted := placed.bound id (by simp [waiting])
  have still := h.stillInOrder _
    (fun other below => ((evolves_conclude waiting how).2 other below).toKeeps) placed.unknown
  refine ⟨fun other => ?_, fun other => ?_, fun other holding => ?_, still⟩
  · show LaneEvent.ended other ∈ .ended id :: lanes.history ↔ other < lanes.admitted ∧ _
    rw [conclude_waiters, mem_cons, h.ended]
    by_cases same : other = id
    · subst same; simp [below]
    · simp [same]
  · show LaneEvent.known other ∈ .ended id :: lanes.history ↔ _
    rw [conclude_waiters, mem_cons, h.known]
    by_cases same : other = id
    · subst same; simp
    · simp [same]
  · rw [conclude_waiters] at holding
    refine mem_cons_of_mem _ (h.granted other ?_)
    by_cases same : other = id
    · simp [same] at holding
    · rwa [if_neg same] at holding

theorem Chronicled.letGo (h : Chronicled lanes) (placed : Placed batch dropped lanes)
    (member : id ∈ lanes.active) : Chronicled (lanes.letGo id) := by
  have below : id < lanes.admitted := placed.bound id (by
    rcases (placed.holds id).mpr member with state | state <;> simp [state])
  have still := h.stillInOrder (lanes.letGo id) (fun other _ => ?_) placed.unknown
  · refine ⟨fun other => ?_, fun other => ?_, fun other holding => ?_, still⟩
    · show LaneEvent.ended other ∈ .ended id :: lanes.history ↔ other < lanes.admitted ∧ _
      rw [letGo_waiters, mem_cons, h.ended]
      by_cases same : other = id
      · subst same; simp [below]
      · simp [same]
    · show LaneEvent.known other ∈ .ended id :: lanes.history ↔ _
      rw [letGo_waiters, mem_cons, h.known]
      by_cases same : other = id
      · subst same; simp
      · simp [same]
    · rw [letGo_waiters] at holding
      refine mem_cons_of_mem _ (h.granted other ?_)
      by_cases same : other = id
      · simp [same] at holding
      · rwa [if_neg same] at holding
  · rw [letGo_waiters]
    split
    · rename_i same; subst same
      exact ⟨rfl, rfl, rfl, rfl, fun _ h => h⟩
    · exact (Moves.refl _).toKeeps

/-- A waiter whose turn it is: each ordinary one admitted before it has ended, or has known
    locks that don't conflict. -/
def Ahead (lanes : OperationLanes κ) (id : WaiterId) : Prop :=
  (lanes.waiters id).nested = false → ∀ ahead < id, (lanes.waiters ahead).nested = false →
    (lanes.waiters ahead).state = .done ∨ ((lanes.waiters ahead).locks.isSome = true ∧
      ¬ Conflict (lanes.locksOf ahead) (lanes.locksOf id))

theorem Ahead.evolves {after : OperationLanes κ} (moves : Evolves before after)
    (below : id < before.admitted) (known : (before.waiters id).locks.isSome = true)
    (h : Ahead before id) :
    Ahead after id := by
  intro ordinary ahead less ordinaryAhead
  have own := moves.2 id below
  have other := moves.2 ahead (less.trans below)
  rw [own.nested] at ordinary
  rw [other.nested] at ordinaryAhead
  obtain ⟨locks, found⟩ := Option.isSome_iff_exists.mp known
  rcases h ordinary ahead less ordinaryAhead with state | ⟨knownAhead, apart⟩
  · have := other.state
    left
    grind
  obtain ⟨locksAhead, foundAhead⟩ := Option.isSome_iff_exists.mp knownAhead
  right
  have first : (after.waiters id).locks = some locks := own.locks locks found
  have second : (after.waiters ahead).locks = some locksAhead := other.locks _ foundAhead
  refine ⟨by simp [second], ?_⟩
  simpa [locksOf, first, second, found, foundAhead] using apart

theorem Chronicled.start {batch dropped : List WaiterId} {lanes : OperationLanes κ}
    {id : WaiterId} (h : Chronicled lanes) (placed : Placed (id :: batch) dropped lanes)
    (turn : Ahead lanes id) : Chronicled (lanes.start id) := by
  have waiting : (lanes.waiters id).state = .waiting := (placed.waits id).mpr (by simp)
  have known : (lanes.waiters id).locks.isSome = true := placed.known id (by simp)
  have moves := evolves_start waiting
  have still := h.stillInOrder _ (fun other below => (moves.2 other below).toKeeps) placed.unknown
  have below : id < lanes.admitted := placed.bound id (by simp [waiting])
  refine ⟨fun other => ?_, fun other => ?_, fun other holding => ?_, ⟨⟨(h.known id).mpr known, ?_⟩, still⟩⟩
  · show LaneEvent.ended other ∈ .granted id :: lanes.history ↔ other < lanes.admitted ∧ _
    rw [start_waiters, mem_cons, h.ended]
    by_cases same : other = id
    · subst same; simp [waiting]
    · simp [same]
  · show LaneEvent.known other ∈ .granted id :: lanes.history ↔ _
    rw [start_waiters, mem_cons, h.known]
    by_cases same : other = id
    · subst same; simp
    · simp [same]
  · rw [start_waiters] at holding
    by_cases same : other = id
    · exact same ▸ mem_cons_self ..
    · rw [if_neg same] at holding
      exact mem_cons_of_mem _ (h.granted other holding)
  intro ordinary ahead less ordinaryAhead
  have own := moves.2 id below
  have other := moves.2 ahead (less.trans below)
  rw [own.nested] at ordinary
  rw [other.nested] at ordinaryAhead
  refine (turn ordinary ahead less ordinaryAhead).imp (fun done => ?_) fun ⟨known, apart⟩ => ?_
  · exact (h.ended ahead).mpr ⟨less.trans below, done⟩
  · refine ⟨(h.known ahead).mpr known, ?_⟩
    have sameLocks : ∀ other, ((lanes.start id).waiters other).locks.getD [] =
        lanes.locksOf other := locksOf_start lanes id
    rw [sameLocks, sameLocks]
    exact apart

/-! ## The loop over the nested queue -/

theorem grantFreeNested_cases (lanes : OperationLanes κ) (id : WaiterId)
    (locks : List (LaneLock κ)) (kind : (lanes.waiters id).nested = true) :
    ∃ asked, (∃ how, lanes.grantFreeNested id locks =
        { lanes.remove id with asked := asked }.conclude id how) ∨
      lanes.grantFreeNested id locks =
        { lanes.remove id with asked := asked, held := lanes.held.take locks }.start id := by
  have out : lanes.remove id = { lanes with nested := lanes.nested.erase id } := by
    simp [remove, kind]
  obtain ⟨first, askedFirst⟩ : ∃ asked, (if (lanes.waiters id).continuation then
        askRefuse { lanes with nested := lanes.nested.erase id } (lanes.waiters id).label locks
      else (none, { lanes with nested := lanes.nested.erase id })).2 =
        { lanes.remove id with asked := asked } := by
    rw [out]
    split
    · obtain ⟨asked, h⟩ := askRefuse_snd { lanes with nested := lanes.nested.erase id } (lanes.waiters id).label locks
      exact ⟨asked, h⟩
    · exact ⟨lanes.asked, rfl⟩
  unfold grantFreeNested
  dsimp only
  rw [askedFirst]
  split
  · exact ⟨first, .inl ⟨_, rfl⟩⟩
  obtain ⟨second, askedSecond⟩ := askPrecondition_snd { lanes.remove id with asked := first } id
  refine ⟨second, ?_⟩
  rw [askedSecond]
  split
  · right; simp
  · exact .inl ⟨_, rfl⟩

/-- An operation taken out of the nested queue, and granted or ended. -/
structure Freed (batch : List WaiterId) (before : OperationLanes κ) (id : WaiterId)
    (after : OperationLanes κ) : Prop where
  placed : Placed batch [] after
  chronicled : Chronicled before → Chronicled after
  evolves : Evolves before after
  line : after.waiting = before.waiting
  queue : after.nested = before.nested.erase id
  locks : ∀ other, (after.waiters other).locks = (before.waiters other).locks
  admitted : after.admitted = before.admitted
  held : before.active <+: after.active
  left : (after.waiters id).state = .granted ∨ (after.waiters id).state = .done

theorem grantFreeNested_freed (placed : Placed batch [] lanes) (member : id ∈ lanes.nested)
    {locks : List (LaneLock κ)} (found : (lanes.waiters id).locks = some locks)
    (free : ∀ lock ∈ locks, lanes.held.conflicts lock = false) :
    Freed batch lanes id (lanes.grantFreeNested id locks) := by
  have kind : (lanes.waiters id).nested = true := placed.inner id member
  have waiting : (lanes.waiters id).state = .waiting :=
    (placed.waits id).mpr (.inr (.inl member))
  have queue : (lanes.remove id).nested = lanes.nested.erase id := by simp [remove, kind]
  have line : (lanes.remove id).waiting = lanes.waiting := by simp [remove, kind]
  obtain ⟨asked, ⟨how, shape⟩ | shape⟩ := lanes.grantFreeNested_cases id locks kind
  · have out : Placed batch [id] { lanes.remove id with asked := asked } :=
      (placed.remove (.inr member)).congr rfl rfl rfl rfl rfl rfl
    have waiting' : ({ lanes.remove id with asked := asked } : OperationLanes κ).waiters id =
        lanes.waiters id := congrFun (remove_waiters lanes id) id
    have leaves : Evolves lanes { lanes.remove id with asked := asked } :=
      evolves_of_waiters (remove_waiters lanes id) (remove_admitted lanes id)
    rw [shape]
    refine ⟨out.conclude how, fun chronicled => ?_,
      leaves.trans (evolves_conclude (waiting' ▸ waiting) how), line, queue, fun other => ?_,
      remove_admitted lanes id, ?_, .inr ?_⟩
    · have out' : Chronicled { lanes.remove id with asked := asked } := chronicled.congr
        (remove_waiters lanes id) (remove_history lanes id) (remove_admitted lanes id)
      exact out'.conclude out (waiting' ▸ waiting) how
    · rw [conclude_waiters]
      split
      · rename_i same; subst same; simp
      · simp
    · show lanes.active <+: (lanes.remove id).active
      exact (remove_active lanes id).symm ▸ prefix_rfl
    · rw [conclude_waiters, if_pos rfl]
  · have taken : Placed (id :: batch) []
        { lanes.remove id with asked := asked, held := lanes.held.take locks } := by
      have out := (placed.remove (.inr member)).take
        (by rw [remove_waiters]; exact found) (by rw [remove_held]; exact free)
      exact out.congr rfl rfl rfl rfl (by rw [remove_held]) rfl
    have waiting' : ({ lanes.remove id with
        asked := asked, held := lanes.held.take locks } : OperationLanes κ).waiters id =
        lanes.waiters id := congrFun (remove_waiters lanes id) id
    have leaves : Evolves lanes
        { lanes.remove id with asked := asked, held := lanes.held.take locks } :=
      evolves_of_waiters (remove_waiters lanes id) (remove_admitted lanes id)
    rw [shape]
    refine ⟨taken.start, fun chronicled => ?_,
      leaves.trans (evolves_start (waiting' ▸ waiting)), line, queue, fun other => ?_,
      remove_admitted lanes id, ?_, .inl ?_⟩
    · have out' : Chronicled { lanes.remove id with
          asked := asked, held := lanes.held.take locks } := chronicled.congr
        (remove_waiters lanes id) (remove_history lanes id) (remove_admitted lanes id)
      refine out'.start taken fun ordinary => ?_
      rw [waiting', kind] at ordinary
      cases ordinary
    · rw [start_waiters]
      split
      · rename_i same; subst same; simp
      · simp
    · have notActive : id ∉ lanes.active := by
        intro active
        rcases (placed.holds id).mpr active with state | state <;> simp [waiting] at state
      refine ⟨[id], ?_⟩
      simp [OperationLanes.start, note, update, notActive]
    · rw [start_waiters, if_pos rfl]

/-- What holds of the lanes at each turn of the loop over the nested queue, `rest` of which is still to come. -/
structure NestedPass (before : OperationLanes κ) (rest : List WaiterId) (blocked : LockTable κ)
    (lanes : OperationLanes κ) : Prop where
  placed : Placed [] [] lanes
  chronicled : Chronicled before → Chronicled lanes
  evolves : Evolves before lanes
  line : lanes.waiting = before.waiting
  admitted : lanes.admitted = before.admitted
  held : before.active <+: lanes.active
  later : ∀ id ∈ rest, id ∈ lanes.nested
  wanted : ∃ wanted, blocked.Sums wanted ∧ ∀ locks, locks ∈ wanted ↔
    ∃ id ∈ lanes.nested, id ∉ rest ∧ lanes.locksOf id = locks
  obstacle : ∀ id ∈ lanes.nested, id ∉ rest → ∀ locks, (lanes.waiters id).locks = some locks →
    ∃ holder ∈ lanes.active, Conflict (lanes.locksOf holder) locks

theorem NestedPass.start {lanes : OperationLanes κ} (placed : Placed [] [] lanes) :
    NestedPass lanes lanes.nested .empty lanes where
  placed := placed
  chronicled := id
  evolves := .refl lanes
  line := rfl
  admitted := rfl
  held := prefix_rfl
  later := fun _ h => h
  wanted := ⟨[], LockTable.sums_empty, by simp +contextual⟩
  obstacle := fun _ member absent => absurd member absent

variable {blocked : LockTable κ} {rest : List WaiterId}

/-- An operation whose locks aren't known, or aren't free, stays and blocks the line. -/
theorem NestedPass.stay (h : NestedPass before (id :: rest) blocked lanes) (new : id ∉ rest)
    (busy : ∀ locks, (lanes.waiters id).locks = some locks →
      ∃ holder ∈ lanes.active, Conflict (lanes.locksOf holder) locks) :
    NestedPass before rest (blocked.take (lanes.locksOf id)) lanes := by
  have member : id ∈ lanes.nested := h.later id (mem_cons_self ..)
  have once : OneLockPerKey (lanes.locksOf id) := by
    unfold locksOf
    cases found : (lanes.waiters id).locks with
    | none => exact nodup_nil
    | some locks => exact h.placed.normalized id locks found
  have among : ∀ other, (other ∈ lanes.nested ∧ other ∉ rest) ↔
      other = id ∨ (other ∈ lanes.nested ∧ other ∉ id :: rest) := by
    intro other
    by_cases same : other = id
    · subst same; simp [member, new]
    · simp [same]
  refine ⟨h.placed, h.chronicled, h.evolves, h.line, h.admitted, h.held,
    fun other later => h.later other (mem_cons_of_mem _ later), ?_, ?_⟩
  · obtain ⟨wanted, sums, exactly⟩ := h.wanted
    refine ⟨lanes.locksOf id :: wanted, sums.take once, fun locks => ?_⟩
    rw [mem_cons, exactly]
    constructor
    · rintro (rfl | ⟨other, inQueue, notLater, rfl⟩)
      · exact ⟨id, member, new, rfl⟩
      · exact ⟨other, inQueue, fun later => notLater (mem_cons_of_mem _ later), rfl⟩
    · rintro ⟨other, inQueue, notLater, rfl⟩
      rcases (among other).mp ⟨inQueue, notLater⟩ with rfl | ⟨_, notLater⟩
      · exact .inl rfl
      · exact .inr ⟨other, inQueue, notLater, rfl⟩
  · intro other inQueue notLater locks found
    rcases (among other).mp ⟨inQueue, notLater⟩ with rfl | ⟨_, notLater⟩
    · exact busy locks found
    · exact h.obstacle other inQueue notLater locks found

theorem NestedPass.leave {lanes' : OperationLanes κ}
    (h : NestedPass before (id :: rest) blocked lanes) (new : id ∉ rest)
    (placed : Placed [] [] lanes') (chronicled : Chronicled lanes → Chronicled lanes')
    (evolves : Evolves lanes lanes') (line : lanes'.waiting = lanes.waiting)
    (queue : lanes'.nested = lanes.nested.erase id)
    (same : ∀ other, (lanes'.waiters other).locks = (lanes.waiters other).locks)
    (admitted : lanes'.admitted = lanes.admitted) (held : lanes.active <+: lanes'.active) :
    NestedPass before rest blocked lanes' := by
  have once : lanes.nested.Nodup :=
    (nodup_append.mp (nodup_append.mp h.placed.once).2.1).1
  have locks : lanes'.locksOf = lanes.locksOf := by funext other; simp [locksOf, same]
  have among : ∀ other, other ∈ lanes'.nested ↔ other ≠ id ∧ other ∈ lanes.nested := by
    intro other
    rw [queue, once.mem_erase_iff]
  refine ⟨placed, fun c => chronicled (h.chronicled c), h.evolves.trans evolves,
    line.trans h.line, admitted.trans h.admitted, h.held.trans held, ?_, ?_, ?_⟩
  · intro other later
    rw [among]
    exact ⟨fun same => new (same ▸ later), h.later other (mem_cons_of_mem _ later)⟩
  · obtain ⟨wanted, sums, exactly⟩ := h.wanted
    refine ⟨wanted, sums, fun list => ?_⟩
    rw [exactly, locks]
    constructor
    · rintro ⟨other, inQueue, notLater, rfl⟩
      rw [mem_cons, not_or] at notLater
      exact ⟨other, (among other).mpr ⟨notLater.1, inQueue⟩, notLater.2, rfl⟩
    · rintro ⟨other, inQueue, notLater, rfl⟩
      obtain ⟨different, inQueue⟩ := (among other).mp inQueue
      exact ⟨other, inQueue, by simp [different, notLater], rfl⟩
  · intro other inQueue notLater list found
    obtain ⟨different, inQueue⟩ := (among other).mp inQueue
    rw [same] at found
    obtain ⟨holder, holds, clash⟩ := h.obstacle other inQueue (by simp [different, notLater]) list found
    exact ⟨holder, held.subset holds, locks ▸ clash⟩

theorem NestedPass.grantFree (h : NestedPass before (id :: rest) blocked lanes) (new : id ∉ rest)
    {locks : List (LaneLock κ)} (found : (lanes.waiters id).locks = some locks)
    (free : ∀ lock ∈ locks, lanes.held.conflicts lock = false) :
    NestedPass before rest blocked (lanes.grantFreeNested id locks) := by
  have freed := grantFreeNested_freed h.placed (h.later id (mem_cons_self ..)) found free
  exact h.leave new freed.placed freed.chronicled freed.evolves freed.line freed.queue freed.locks
    freed.admitted freed.held

/-- The whole loop. -/
theorem NestedPass.run (h : NestedPass before rest blocked lanes) (nodup : rest.Nodup) :
    NestedPass before [] (lanes.grantNested blocked rest).2 (lanes.grantNested blocked rest).1 := by
  induction rest generalizing lanes blocked with
  | nil => exact h
  | cons id rest ih =>
    rw [nodup_cons] at nodup
    unfold grantNested
    cases found : (lanes.waiters id).locks with
    | none =>
      have stay := h.stay nodup.1 (by simp [found])
      rw [show lanes.locksOf id = [] by simp [locksOf, found]] at stay
      exact ih stay nodup.2
    | some locks =>
      have own : lanes.locksOf id = locks := by simp [locksOf, found]
      dsimp only
      split
      · rename_i busy
        have stay := h.stay nodup.1 fun list known => ?_
        · rw [own] at stay
          exact ih stay nodup.2
        · cases found.symm.trans known
          obtain ⟨lock, member, hit⟩ := any_eq_true.mp busy
          obtain ⟨others, among, other, holds, clash⟩ := (h.placed.sums.conflicts_iff lock).mp hit
          obtain ⟨holder, active, rfl⟩ := mem_map.mp among
          exact ⟨holder, by simpa using active, other, holds, lock, member, clash⟩
      · rename_i free
        refine ih (h.grantFree nodup.1 found fun lock member => ?_) nodup.2
        by_contra hit
        exact free (any_eq_true.mpr ⟨lock, member, by simpa using hit⟩)

/-! ## The selection -/

/-- Nothing but why waiters were refused, and how often a hook was asked, has changed. -/
structure OnlyRefused (before after : OperationLanes κ) : Prop where
  rest : after = { before with waiters := after.waiters, asked := after.asked }
  waiters : ∀ id, after.waiters id =
    { before.waiters id with refused := (after.waiters id).refused }

theorem OnlyRefused.refl (lanes : OperationLanes κ) : OnlyRefused lanes lanes :=
  ⟨rfl, fun _ => rfl⟩

theorem OnlyRefused.trans (a b c : OperationLanes κ) (h : OnlyRefused a b) (k : OnlyRefused b c) : OnlyRefused a c := by
  constructor
  · rw [k.rest, h.rest]
  · intro id
    rw [k.waiters id, h.waiters id]

theorem admitFree_onlyRefused (lanes : OperationLanes κ) (id : WaiterId) :
    OnlyRefused lanes (lanes.admitFree id).2 := by
  unfold admitFree
  obtain ⟨first, askedFirst⟩ := lanes.askRefuse_snd (lanes.waiters id).label (lanes.locksOf id)
  dsimp only
  rw [askedFirst]
  split
  · refine ⟨rfl, fun other => ?_⟩
    rw [update_waiters]
    split
    · rename_i same; subst same; rfl
    · rfl
  · obtain ⟨second, askedSecond⟩ := askPrecondition_snd { lanes with asked := first } id
    rw [askedSecond]
    exact ⟨rfl, fun _ => rfl⟩

theorem foldl_remove (ids : List WaiterId) (lanes : OperationLanes κ)
    (ordinary : ∀ id ∈ ids, (lanes.waiters id).nested = false) :
    ids.foldl remove lanes = { lanes with waiting := lanes.waiting.diff ids } := by
  induction ids generalizing lanes with
  | nil => simp
  | cons id ids ih =>
    have first : lanes.remove id = { lanes with waiting := lanes.waiting.erase id } := by
      simp [remove, ordinary id (by simp)]
    rw [foldl_cons, first, ih { lanes with waiting := lanes.waiting.erase id }
      (fun other member => ordinary other (mem_cons_of_mem _ member)), diff_cons]

theorem select_known (lanes : OperationLanes κ) (blocked : LockTable κ) (id : WaiterId)
    (chosen : id ∈ (lanes.select blocked).granted ∨ id ∈ (lanes.select blocked).dropped) :
    ∃ locks, (lanes.waiters id).locks = some locks := by
  have known := selectGrants_known _ _ _ chosen
  exact known

/-- The lanes with a selection taken out of line. -/
structure TakenOut (before : OperationLanes κ) (batch granted dropped : List WaiterId)
    (after : OperationLanes κ) : Prop where
  placed : Placed (granted ++ batch) dropped after
  chronicled : Chronicled before → Chronicled after
  evolves : Evolves before after
  line : ∀ id, id ∈ after.waiting ↔ id ∈ before.waiting ∧ id ∉ granted ∧ id ∉ dropped
  nested : after.nested = before.nested
  active : after.active = before.active
  admitted : after.admitted = before.admitted
  locks : ∀ id, (after.waiters id).locks = (before.waiters id).locks
  kind : ∀ id, (after.waiters id).nested = (before.waiters id).nested

variable {wanted : List (List (LaneLock κ))}

theorem takeOut_select (placed : Placed batch [] lanes) (blocked : LockTable κ) (sums : blocked.Sums wanted) :
    TakenOut lanes batch (lanes.select blocked).granted (lanes.select blocked).dropped
      (takeOut (lanes.select blocked)) := by
  have onlyRefused : OnlyRefused lanes (lanes.select blocked).env :=
    selectGrants_env OnlyRefused.refl OnlyRefused.trans admitFree_onlyRefused _ _ _ _
  obtain ⟨grantedLine, droppedLine⟩ : (lanes.select blocked).granted.Sublist lanes.waiting ∧
      (lanes.select blocked).dropped.Sublist lanes.waiting := selectGrants_sublist _ _ _ _
  have waitingOnce : lanes.waiting.Nodup := (nodup_append.mp placed.once).1
  have disjoint : ∀ id ∈ (lanes.select blocked).granted, id ∉ (lanes.select blocked).dropped :=
    fun id => selectGrants_disjoint _ _ _ waitingOnce
  have known : ∀ id, id ∈ (lanes.select blocked).granted ∨ id ∈ (lanes.select blocked).dropped →
      ∃ locks, (lanes.waiters id).locks = some locks := select_known lanes blocked
  have heldSums : (lanes.select blocked).held.Sums
      ((lanes.select blocked).granted.map lanes.locksOf ++ (lanes.active ++ batch).map lanes.locksOf) :=
    selectGrants_held placed.normalized placed.sums blocked lanes lanes.waiting
  obtain ⟨apartHeld, apartGranted⟩ :
      (∀ id ∈ (lanes.select blocked).granted, ∀ other ∈ (lanes.active ++ batch).map lanes.locksOf ++ wanted,
          ¬ Conflict other (lanes.locksOf id)) ∧
      (lanes.select blocked).granted.Pairwise fun a b => ¬ Conflict (lanes.locksOf a) (lanes.locksOf b) :=
    selectGrants_apart placed.normalized placed.sums sums lanes lanes.waiting
  generalize lanes.select blocked = selection at *
  obtain ⟨granted, dropped, held, env⟩ := selection
  dsimp only at *
  have ordinary : ∀ id ∈ granted ++ dropped,
      (({ env with held := held } : OperationLanes κ).waiters id).nested = false := by
    intro id member
    show (env.waiters id).nested = false
    rw [onlyRefused.waiters id]
    rcases mem_append.mp member with member | member
    · exact placed.ordinary id (grantedLine.subset member)
    · exact placed.ordinary id (droppedLine.subset member)
  have shape : takeOut ⟨granted, dropped, held, env⟩ = { lanes with
      waiters := env.waiters, asked := env.asked, held := held,
      waiting := lanes.waiting.diff (granted ++ dropped) } := by
    unfold takeOut
    rw [foldl_remove _ _ ordinary, onlyRefused.rest]
  rw [shape]
  have locks : ∀ id, (env.waiters id).locks = (lanes.waiters id).locks := by
    intro id; rw [onlyRefused.waiters id]
  have locksOf' : (fun id => (env.waiters id).locks.getD []) = lanes.locksOf := by
    funext id; rw [locks id]; rfl
  have state : ∀ id, (env.waiters id).state = (lanes.waiters id).state := by
    intro id; rw [onlyRefused.waiters id]
  have kind : ∀ id, (env.waiters id).nested = (lanes.waiters id).nested := by
    intro id; rw [onlyRefused.waiters id]
  have line : ∀ id, id ∈ lanes.waiting.diff (granted ++ dropped) ↔
      id ∈ lanes.waiting ∧ id ∉ granted ∧ id ∉ dropped := by
    intro id
    rw [waitingOnce.mem_sdiff_iff, mem_append, not_or]
  have regroup : (lanes.active ++ (granted ++ batch)).Perm (granted ++ (lanes.active ++ batch)) :=
    perm_append_comm_assoc _ _ _
  have moves : ∀ id, Moves (lanes.waiters id) (env.waiters id) := by
    intro id
    rw [onlyRefused.waiters id]
    exact ⟨⟨rfl, rfl, rfl, rfl, fun _ h => h⟩, fun h => h, .inl rfl, fun _ => ⟨rfl, rfl⟩⟩
  refine ⟨?_, fun chronicled => ?_, ⟨le_rfl, fun id _ => moves id⟩, line, rfl, rfl, rfl, locks, kind⟩
  · constructor
    · intro id; rw [state]; exact placed.bound id
    · intro id; rw [locks]; exact placed.unknown id
    · intro id
      rw [state, placed.waits id, line]
      have fromGranted : id ∈ granted → id ∈ lanes.waiting := fun m => grantedLine.subset m
      have fromDropped : id ∈ dropped → id ∈ lanes.waiting := fun m => droppedLine.subset m
      simp only [not_mem_nil, or_false, mem_append]
      tauto
    · intro id; rw [state]; exact placed.holds id
    · have chosenOnce : (granted ++ dropped).Nodup :=
        nodup_append.mpr ⟨waitingOnce.sublist grantedLine, waitingOnce.sublist droppedLine,
          fun a ha b hb same => disjoint a ha (same ▸ hb)⟩
      have chosenLine : (granted ++ dropped).Subperm lanes.waiting :=
        subperm_of_subset chosenOnce (append_subset.mpr ⟨grantedLine.subset, droppedLine.subset⟩)
      have whole : (granted ++ dropped ++ lanes.waiting.diff (granted ++ dropped)).Perm
          lanes.waiting :=
        subperm_append_diff_self_of_count_le fun id _ => chosenLine.count_le id
      refine (Perm.nodup_iff ?_).mpr placed.once
      refine Perm.trans ?_ (whole.append_right _)
      refine perm_iff_count.mpr fun id => ?_
      simp only [count_append, count_nil]
      omega
    · exact placed.activeOnce
    · intro id member
      rw [kind]
      exact placed.ordinary id ((line id).mp member).1
    · intro id member
      rw [kind]
      exact placed.inner id member
    · exact placed.inOrder.sublist (diff_sublist _ _)
    · intro id list found
      rw [locks] at found
      exact placed.normalized id list found
    · intro id member
      rw [locks]
      rcases mem_append.mp (regroup.mem_iff.mp member) with member | member
      · obtain ⟨list, found⟩ := known id (.inl member)
        simp [found]
      · exact placed.known id member
    · show held.Sums ((lanes.active ++ (granted ++ batch)).map fun id => (env.waiters id).locks.getD [])
      rw [locksOf']
      refine heldSums.perm ?_
      rw [← map_append]
      exact regroup.symm.map _
    · show (lanes.active ++ (granted ++ batch)).Pairwise fun a b =>
        ¬ Conflict ((env.waiters a).locks.getD []) ((env.waiters b).locks.getD [])
      simp only [locks]
      refine (regroup.pairwise_iff fun apart clash => apart clash.symm).mpr ?_
      refine pairwise_append.mpr ⟨apartGranted, placed.apart, ?_⟩
      intro a isGranted b holds clash
      exact apartHeld a isGranted (lanes.locksOf b) (mem_append_left _ (mem_map_of_mem holds)) clash.symm
    · intro id waiting
      rw [state] at waiting
      rw [onlyRefused.waiters id]
      exact placed.pending id waiting
    · intro id holding
      rw [state] at holding
      rw [onlyRefused.waiters id]
      exact placed.settled id holding
  · refine ⟨fun id => ?_, fun id => ?_, fun id holding => ?_, ?_⟩
    · show LaneEvent.ended id ∈ lanes.history ↔ id < lanes.admitted ∧ (env.waiters id).state = _
      rw [state]
      exact chronicled.ended id
    · show LaneEvent.known id ∈ lanes.history ↔ (env.waiters id).locks.isSome = true
      rw [locks]
      exact chronicled.known id
    · rw [state] at holding
      exact chronicled.granted id holding
    · exact chronicled.stillInOrder { lanes with waiters := env.waiters }
        (fun id _ => (moves id).toKeeps) placed.unknown

/-- When an operation is selected, each ordinary one admitted before it has ended, is dropped by the same selection, or
doesn't conflict. -/
theorem select_turn (placed : Placed [] [] lanes) (blocked : LockTable κ)
    (sums : blocked.Sums wanted) (granted : id ∈ (lanes.select blocked).granted) {ahead : WaiterId}
    (less : ahead < id) (ordinary : (lanes.waiters ahead).nested = false) :
    ahead ∈ (lanes.select blocked).dropped ∨ (lanes.waiters ahead).state = .done ∨
      ((lanes.waiters ahead).locks.isSome = true ∧ ¬ Conflict (lanes.locksOf ahead) (lanes.locksOf id)) := by
  have inLine : id ∈ lanes.waiting := (selectGrants_sublist _ _ _ _).1.subset granted
  have waitingOnce : lanes.waiting.Nodup := (nodup_append.mp placed.once).1
  obtain ⟨apartHeld, apartGranted⟩ :
      (∀ id ∈ (lanes.select blocked).granted, ∀ other ∈ lanes.active.map lanes.locksOf ++ wanted,
        ¬ Conflict other (lanes.locksOf id)) ∧
      (lanes.select blocked).granted.Pairwise fun a b => ¬ Conflict (lanes.locksOf a) (lanes.locksOf b) :=
    selectGrants_apart placed.normalized (by simpa using placed.sums) sums lanes lanes.waiting
  cases state : (lanes.waiters ahead).state with
  | done => exact .inr (.inl rfl)
  | granted =>
    have active := (placed.holds ahead).mp (.inl state)
    exact .inr (.inr ⟨placed.known ahead (mem_append_left _ active),
      apartHeld id granted _ (mem_append_left _ (mem_map_of_mem active))⟩)
  | running =>
    have active := (placed.holds ahead).mp (.inr state)
    exact .inr (.inr ⟨placed.known ahead (mem_append_left _ active),
      apartHeld id granted _ (mem_append_left _ (mem_map_of_mem active))⟩)
  | waiting =>
    have aheadInLine : ahead ∈ lanes.waiting := by
      rcases (placed.waits ahead).mp state with member | member | member | member
      · exact member
      · simp [placed.inner ahead member] at ordinary
      · simp at member
      · simp at member
    -- The line is in admission order, so what was admitted before is ahead in it.
    obtain ⟨before, after, shape⟩ := append_of_mem inLine
    have aheadBefore : ahead ∈ before := by
      have sorted := placed.inOrder
      rw [shape] at aheadInLine sorted
      rcases mem_append.mp aheadInLine with member | member
      · exact member
      · rcases mem_cons.mp member with same | member
        · exact absurd (same ▸ less) (lt_irrefl id)
        · have sooner := (pairwise_cons.mp (pairwise_append.mp sorted).2.1).1 ahead member
          exact absurd less (lt_asymm sooner)
    have held : lanes.held.Sums (lanes.active.map lanes.locksOf) := by simpa using placed.sums
    unfold select at granted ⊢
    rw [shape] at granted waitingOnce
    obtain ⟨⟨locks, found⟩, how⟩ := selectGrants_order placed.normalized held sums lanes waitingOnce granted aheadBefore
    rw [← shape] at how granted
    rcases how with both | drop | apart
    · have : Std.Symm fun a b : WaiterId => ¬ Conflict (lanes.locksOf a) (lanes.locksOf b) :=
        ⟨fun _ _ apart clash => apart clash.symm⟩
      exact .inr (.inr ⟨by simp [found], apartGranted.forall both granted (ne_of_lt less)⟩)
    · exact .inl drop
    · exact .inr (.inr ⟨by simp [found], apart⟩)

/-- Rejecting everything a selection dropped. -/
structure Rejected (before : OperationLanes κ) (batch dropped : List WaiterId)
    (after : OperationLanes κ) : Prop where
  placed : Placed batch [] after
  chronicled : Chronicled before → Chronicled after
  evolves : Evolves before after
  waiting : after.waiting = before.waiting
  nested : after.nested = before.nested
  active : after.active = before.active
  admitted : after.admitted = before.admitted
  locks : ∀ id, (after.waiters id).locks = (before.waiters id).locks
  done : ∀ id ∈ dropped, (after.waiters id).state = .done

theorem rejectAll (placed : Placed batch dropped lanes) : Rejected lanes batch dropped
      (dropped.foldl (fun lanes id => lanes.reject id (dropError (lanes.waiters id))) lanes) := by
  induction dropped generalizing lanes with
  | nil => exact ⟨placed, id, .refl lanes, rfl, rfl, rfl, rfl, fun _ => rfl, by simp⟩
  | cons id dropped ih =>
    have waiting : (lanes.waiters id).state = .waiting := (placed.waits id).mpr (by simp)
    have below : id < lanes.admitted := placed.bound id (by simp [waiting])
    have first := placed.conclude (.fail (dropError (lanes.waiters id)))
    have rest := ih first
    refine ⟨rest.placed, fun c => rest.chronicled (c.conclude placed waiting _),
      (evolves_conclude waiting _).trans rest.evolves, rest.waiting, rest.nested, rest.active,
      rest.admitted, fun other => ?_, fun other member => ?_⟩
    · rw [foldl_cons]
      refine (rest.locks other).trans ?_
      rw [conclude_waiters]
      split
      · rename_i same; subst same; rfl
      · rfl
    · rw [foldl_cons]
      rcases mem_cons.mp member with rfl | member
      · have done : ((lanes.conclude other (.fail (dropError (lanes.waiters other)))).waiters
            other).state = .done := by rw [conclude_waiters, if_pos rfl]
        exact (rest.evolves.2 other below).done done
      · exact rest.done other member

/-- Starting everything a selection granted. -/
structure Started (before : OperationLanes κ) (batch : List WaiterId)
    (after : OperationLanes κ) : Prop where
  placed : Placed [] [] after
  chronicled : Chronicled before → Chronicled after
  evolves : Evolves before after
  waiting : after.waiting = before.waiting
  nested : after.nested = before.nested
  active : after.active = before.active ++ batch
  admitted : after.admitted = before.admitted
  locks : ∀ id, (after.waiters id).locks = (before.waiters id).locks

theorem startAll (placed : Placed batch [] lanes) (turns : ∀ id ∈ batch, Ahead lanes id) :
    Started lanes batch (batch.foldl start lanes) := by
  induction batch generalizing lanes with
  | nil => exact ⟨placed, id, .refl lanes, rfl, rfl, by simp, rfl, fun _ => rfl⟩
  | cons id batch ih =>
    have waiting : (lanes.waiters id).state = .waiting := (placed.waits id).mpr (by simp)
    have moves := evolves_start waiting
    have notActive : id ∉ lanes.active := by
      intro member
      rcases (placed.holds id).mpr member with state | state <;> simp [waiting] at state
    have active : (lanes.start id).active = lanes.active ++ [id] := by
      simp [start, note, update, notActive]
    have rest := ih placed.start fun other member => by
      have isWaiting : (lanes.waiters other).state = .waiting :=
        (placed.waits other).mpr (by simp [member])
      exact (turns other (mem_cons_of_mem _ member)).evolves moves
        (placed.bound other (by simp [isWaiting])) (placed.known other (by simp [member]))
    refine ⟨rest.placed, fun c => rest.chronicled (c.start placed (turns id (by simp))),
      moves.trans rest.evolves, rest.waiting, rest.nested, ?_, rest.admitted, fun other => ?_⟩
    · rw [foldl_cons, rest.active, active, append_assoc, singleton_append]
    rw [foldl_cons]
    refine (rest.locks other).trans ?_
    rw [start_waiters]
    split
    · rename_i same; subst same; rfl
    · rfl

/-- A selection taken out of line, rejected and started. -/
structure Selected (before : OperationLanes κ) (granted dropped : List WaiterId)
    (after : OperationLanes κ) : Prop where
  placed : Placed [] [] after
  chronicled : Chronicled before → Chronicled after
  evolves : Evolves before after
  line : ∀ id, id ∈ after.waiting ↔ id ∈ before.waiting ∧ id ∉ granted ∧ id ∉ dropped
  nested : after.nested = before.nested
  active : after.active = before.active ++ granted
  admitted : after.admitted = before.admitted
  locks : ∀ id, (after.waiters id).locks = (before.waiters id).locks

theorem finishSelection_selected (placed : Placed [] [] lanes) (blocked : LockTable κ) (sums : blocked.Sums wanted) :
    Selected lanes (lanes.select blocked).granted (lanes.select blocked).dropped
      ((takeOut (lanes.select blocked)).finishSelection (lanes.select blocked).granted
        (lanes.select blocked).dropped) := by
  have out := takeOut_select placed blocked sums
  have placedOut := out.placed
  rw [append_nil] at placedOut
  have rejected := rejectAll placedOut
  have kept := out.evolves.trans rejected.evolves
  have locks := fun id => (rejected.locks id).trans (out.locks id)
  have started := startAll rejected.placed fun id granted => by
    intro ordinary ahead less ordinaryAhead
    have inLine : id ∈ lanes.waiting := (selectGrants_sublist _ _ _ _).1.subset granted
    have below : id < lanes.admitted := placed.bound id (by
      simp [(placed.waits id).mpr (.inl inLine)])
    have keeps := kept.2 ahead (less.trans below)
    rw [keeps.nested] at ordinaryAhead
    rcases select_turn placed blocked sums granted less ordinaryAhead with
      dropped | done | ⟨known, apart⟩
    · exact .inl (rejected.done ahead dropped)
    · exact .inl (keeps.done done)
    · refine Or.inr ⟨by rw [locks]; exact known, ?_⟩
      unfold locksOf
      rw [locks, locks]
      exact apart
  refine ⟨started.placed, fun c => started.chronicled (rejected.chronicled (out.chronicled c)),
    kept.trans started.evolves, fun id => ?_, started.nested.trans (rejected.nested.trans out.nested),
    ?_, started.admitted.trans (rejected.admitted.trans out.admitted),
    fun id => (started.locks id).trans (locks id)⟩
  · unfold finishSelection
    rw [started.waiting, rejected.waiting]
    exact out.line id
  · unfold finishSelection
    rw [started.active, rejected.active, out.active]

/-! ## Granting -/

/-- Nothing waits that could start. A nested operation waits for a lock that is held. An ordinary one, with no unknown
locks up to its place in the line, waits for one that is held, that a nested operation waits for, or that an earlier one
in the line waits for. -/
structure Quiescent (lanes : OperationLanes κ) : Prop where
  nested : ∀ id ∈ lanes.nested, ∀ locks, (lanes.waiters id).locks = some locks →
    ∃ holder ∈ lanes.active, Conflict (lanes.locksOf holder) locks
  line : ∀ id ∈ lanes.waiting, (∀ ahead ∈ lanes.waiting, ahead ≤ id → (lanes.waiters ahead).locks.isSome = true) →
    (∃ other ∈ lanes.active ++ lanes.nested, Conflict (lanes.locksOf other) (lanes.locksOf id)) ∨
      ∃ ahead ∈ lanes.waiting, ahead < id ∧ Conflict (lanes.locksOf ahead) (lanes.locksOf id)

/-- What `#grant` makes of the lanes. -/
structure Granted (before after : OperationLanes κ) : Prop where
  placed : Placed [] [] after
  chronicled : Chronicled before → Chronicled after
  evolves : Evolves before after
  admitted : after.admitted = before.admitted
  held : before.active <+: after.active
  quiescent : Quiescent after

theorem grant_granted (placed : Placed [] [] lanes) :
    Granted lanes lanes.grant := by
  have nestedOnce : lanes.nested.Nodup :=
    (nodup_append.mp (nodup_append.mp placed.once).2.1).1
  have pass := (NestedPass.start placed).run nestedOnce
  obtain ⟨wanted, sums, exactly⟩ := pass.wanted
  have selected := finishSelection_selected pass.placed _ sums
  unfold grant
  dsimp only
  generalize (lanes.grantNested .empty lanes.nested).1 = middle at *
  generalize (lanes.grantNested .empty lanes.nested).2 = blocked at *
  generalize hafter : (takeOut (middle.select blocked)).finishSelection
    (middle.select blocked).granted (middle.select blocked).dropped = after at *
  have sameLocks : after.locksOf = middle.locksOf := by
    funext id; simp [locksOf, selected.locks]
  refine ⟨selected.placed, fun c => selected.chronicled (pass.chronicled c),
    pass.evolves.trans selected.evolves, selected.admitted.trans pass.admitted, ?_, ?_, ?_⟩
  · rw [selected.active]
    exact pass.held.trans (prefix_append _ _)
  · intro id member locks found
    rw [selected.nested] at member
    rw [selected.locks] at found
    obtain ⟨holder, active, clash⟩ := pass.obstacle id member (by simp) locks found
    exact ⟨holder, selected.active ▸ mem_append_left _ active, sameLocks ▸ clash⟩
  intro id inLine known
  rw [selected.active, selected.nested, sameLocks]
  obtain ⟨inMiddle, notGranted, notDropped⟩ := (selected.line id).mp inLine
  obtain ⟨front, back, shape⟩ := append_of_mem inMiddle
  have sorted := pass.placed.inOrder
  have lineOnce : middle.waiting.Nodup := (nodup_append.mp pass.placed.once).1
  have sooner : ∀ ahead ∈ front, ahead < id := by
    intro ahead member
    rw [shape] at sorted
    exact (pairwise_append.mp sorted).2.2 ahead member id (mem_cons_self ..)
  have inFront : ∀ ahead ∈ front, ahead ∈ middle.waiting := by
    intro ahead member
    rw [shape]
    exact mem_append_left _ member
  -- What is ahead was chosen, and so has known locks, or is left in the line.
  have knownFront : ∀ ahead ∈ front ++ [id], ∃ locks, (middle.waiters ahead).locks = some locks := by
    intro ahead member
    rw [← Option.isSome_iff_exists]
    have here : ahead ∈ middle.waiting ∧ ahead ≤ id := by
      rcases mem_append.mp member with member | member
      · exact ⟨inFront ahead member, (sooner ahead member).le⟩
      · obtain rfl := mem_singleton.mp member
        exact ⟨inMiddle, le_rfl⟩
    by_cases chosen : ahead ∈ (middle.select blocked).granted ∨ ahead ∈ (middle.select blocked).dropped
    · exact Option.isSome_iff_exists.mpr (select_known middle _ ahead chosen)
    · rw [not_or] at chosen
      rw [← selected.locks]
      exact known ahead ((selected.line ahead).mpr ⟨here.1, chosen⟩) here.2
  have held : middle.held.Sums (middle.active.map middle.locksOf) := by
    simpa using pass.placed.sums
  unfold select at notGranted notDropped selected
  rw [shape] at notGranted notDropped lineOnce
  have obstacle := selectGrants_obstacle pass.placed.normalized held sums middle
    lineOnce knownFront notGranted notDropped
  rw [← shape] at obstacle
  rcases obstacle with ⟨other, among, clash⟩ | ⟨other, granted, clash⟩ |
    ⟨ahead, member, notGranted, notDropped, clash⟩
  · left
    rcases mem_append.mp among with among | among
    · obtain ⟨holder, active, rfl⟩ := mem_map.mp among
      exact ⟨holder, by simp [active], clash⟩
    · obtain ⟨waiter, inNested, _, rfl⟩ := (exactly other).mp among
      exact ⟨waiter, by simp [inNested], clash⟩
  · exact .inl ⟨other, mem_append_left _ (mem_append_right _ granted), clash⟩
  · exact .inr ⟨ahead, (selected.line ahead).mpr ⟨inFront ahead member, notGranted, notDropped⟩,
      sooner ahead member, clash⟩

end OperationLanes

end Kiln.Operations
