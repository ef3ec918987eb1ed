import Mathlib
import Kiln.Operations.Lanes

/-!
# Where every waiter is

`Placed batch dropped` says where each waiter of the lanes is, and what the lock table holds.
Inside `#grant` a selection is out of line and not yet started (`batch`, which already holds its
locks) or not yet rejected (`dropped`); between calls both are empty. One lemma for each thing
the lanes do to a waiter moves it from one place to the next.
-/

set_option linter.unusedSectionVars false

namespace Kiln.Operations
open Kiln.Lib List

namespace OperationLanes

variable {κ : Type} [LinearOrder κ]

/-- Every waiter is in one place, the table is the sum of the locks of those that hold any, and
    no two of them conflict. -/
structure Placed (batch dropped : List WaiterId) (lanes : OperationLanes κ) : Prop where
  bound : ∀ id, (lanes.waiters id).state ≠ .done → id < lanes.admitted
  unknown : ∀ id, lanes.admitted ≤ id → (lanes.waiters id).locks = none
  waits : ∀ id, (lanes.waiters id).state = .waiting ↔ id ∈ lanes.waiting ∨ id ∈ lanes.nested ∨ id ∈ batch ∨ id ∈ dropped
  holds : ∀ id, (lanes.waiters id).state = .granted ∨ (lanes.waiters id).state = .running ↔ id ∈ lanes.active
  once : (lanes.waiting ++ (lanes.nested ++ (batch ++ dropped))).Nodup
  activeOnce : lanes.active.Nodup
  ordinary : ∀ id ∈ lanes.waiting, (lanes.waiters id).nested = false
  inner : ∀ id ∈ lanes.nested, (lanes.waiters id).nested = true
  inOrder : lanes.waiting.Pairwise (· < ·)
  normalized : ∀ id locks, (lanes.waiters id).locks = some locks → OneLockPerKey locks
  known : ∀ id ∈ lanes.active ++ batch, (lanes.waiters id).locks.isSome = true
  sums : lanes.held.Sums ((lanes.active ++ batch).map lanes.locksOf)
  apart : (lanes.active ++ batch).Pairwise fun a b => ¬ Conflict (lanes.locksOf a) (lanes.locksOf b)
  pending : ∀ id, (lanes.waiters id).state = .waiting →
    (lanes.waiters id).granted = none ∧ (lanes.waiters id).refusal = none
  settled : ∀ id, (lanes.waiters id).state = .granted ∨ (lanes.waiters id).state = .running →
    (lanes.waiters id).granted = some .void ∧ (lanes.waiters id).refusal = none

/-- What no step changes of a waiter. -/
structure Keeps (before after : Waiter κ) : Prop where
  label : after.label = before.label
  nested : after.nested = before.nested
  continuation : after.continuation = before.continuation
  carriesOn : after.carriesOnWhilePaused = before.carriesOnWhilePaused
  locks : ∀ locks, before.locks = some locks → after.locks = some locks

/-- What a waiter may become by any step but the end of its lookup and the start and the end of its effect. -/
structure Moves (before after : Waiter κ) : Prop extends Keeps before after where
  unknown : before.locks = none → after.locks = none
  state : after.state = before.state ∨ (before.state = .waiting ∧ after.state = .granted) ∨
    ((before.state = .waiting ∨ before.state = .granted) ∧ after.state = .done)
  answer : before.state = .done → after.granted = before.granted ∧ after.refusal = before.refusal

theorem Moves.refl (waiter : Waiter κ) : Moves waiter waiter :=
  ⟨⟨rfl, rfl, rfl, rfl, fun _ h => h⟩, fun h => h, Or.inl rfl, fun _ => ⟨rfl, rfl⟩⟩

theorem Moves.done {before after : Waiter κ} (h : Moves before after)
    (done : before.state = .done) : after.state = .done := by
  have state := h.state
  rw [done] at state
  exact state.resolve_right (by simp)

theorem Moves.arrived {before after : Waiter κ} (h : Moves before after)
    (arrived : before.state ≠ .waiting) : after.state ≠ .waiting := by
  have state := h.state
  grind

theorem Moves.trans {a b c : Waiter κ} (h : Moves a b) (k : Moves b c) : Moves a c := by
  refine ⟨⟨k.label.trans h.label, k.nested.trans h.nested, k.continuation.trans h.continuation,
    k.carriesOn.trans h.carriesOn, fun locks known => k.locks locks (h.locks locks known)⟩,
    fun none => k.unknown (h.unknown none), ?_, fun done => ?_⟩
  · have first := h.state
    have second := k.state
    grind
  · have first := h.answer done
    have second := k.answer (h.done done)
    exact ⟨second.1.trans first.1, second.2.trans first.2⟩

/-- Every waiter moves, and no number is taken back. -/
def Evolves (before after : OperationLanes κ) : Prop :=
  before.admitted ≤ after.admitted ∧ ∀ id < before.admitted, Moves (before.waiters id) (after.waiters id)

theorem Evolves.refl (lanes : OperationLanes κ) : Evolves lanes lanes :=
  ⟨le_rfl, fun _ _ => .refl _⟩

theorem Evolves.trans {a b c : OperationLanes κ} (h : Evolves a b) (k : Evolves b c) :
    Evolves a c :=
  ⟨h.1.trans k.1, fun id below => (h.2 id below).trans (k.2 id (below.trans_le h.1))⟩

/-! ## What each part of the lanes leaves alone -/

@[simp] theorem update_waiters_self (lanes : OperationLanes κ) (id : WaiterId) (change : Waiter κ → Waiter κ) :
    (lanes.update id change).waiters id = change (lanes.waiters id) := by
  simp [update]

variable {id : WaiterId}

theorem update_waiters_ne (lanes : OperationLanes κ) {other : WaiterId}
    (change : Waiter κ → Waiter κ) (h : other ≠ id) :
    (lanes.update id change).waiters other = lanes.waiters other := by
  simp [update, h]

theorem update_waiters (lanes : OperationLanes κ) (id other : WaiterId) (change : Waiter κ → Waiter κ) :
    (lanes.update id change).waiters other =
      if other = id then change (lanes.waiters id) else lanes.waiters other := by
  by_cases h : other = id
  · subst h; simp
  · rw [if_neg h, update_waiters_ne _ _ h]

@[simp] theorem remove_waiters (lanes : OperationLanes κ) (id : WaiterId) :
    (lanes.remove id).waiters = lanes.waiters := by
  unfold remove; split <;> rfl

@[simp] theorem remove_active (lanes : OperationLanes κ) (id : WaiterId) : (lanes.remove id).active = lanes.active := by
  unfold remove; split <;> rfl

@[simp] theorem remove_held (lanes : OperationLanes κ) (id : WaiterId) : (lanes.remove id).held = lanes.held := by
  unfold remove; split <;> rfl

@[simp] theorem remove_admitted (lanes : OperationLanes κ) (id : WaiterId) :
    (lanes.remove id).admitted = lanes.admitted := by
  unfold remove; split <;> rfl

@[simp] theorem remove_history (lanes : OperationLanes κ) (id : WaiterId) :
    (lanes.remove id).history = lanes.history := by
  unfold remove; split <;> rfl

@[simp] theorem locksOf_remove (lanes : OperationLanes κ) (id other : WaiterId) :
    (lanes.remove id).locksOf other = lanes.locksOf other := by
  simp [locksOf]

theorem conclude_waiters (lanes : OperationLanes κ) (id other : WaiterId) (how : Settled) :
    (lanes.conclude id how).waiters other =
      if other = id then
        { lanes.waiters id with state := .done, granted := settle (lanes.waiters id).granted how }
      else lanes.waiters other := by
  simp only [conclude, note, update_waiters]

theorem start_waiters (lanes : OperationLanes κ) (id other : WaiterId) : (lanes.start id).waiters other =
      if other = id then
        { lanes.waiters id with
          state := .granted, granted := settle (lanes.waiters id).granted .void }
      else lanes.waiters other := by
  simp only [start, note, update_waiters]

theorem letGo_waiters (lanes : OperationLanes κ) (id other : WaiterId) : (lanes.letGo id).waiters other =
      if other = id then { lanes.waiters id with state := .done } else lanes.waiters other := by
  simp only [letGo, note, update_waiters]

@[simp] theorem locksOf_conclude (lanes : OperationLanes κ) (id other : WaiterId)
    (how : Settled) : (lanes.conclude id how).locksOf other = lanes.locksOf other := by
  unfold locksOf; rw [conclude_waiters]; split <;> simp_all

@[simp] theorem locksOf_start (lanes : OperationLanes κ) (id other : WaiterId) :
    (lanes.start id).locksOf other = lanes.locksOf other := by
  unfold locksOf; rw [start_waiters]; split <;> simp_all

@[simp] theorem locksOf_letGo (lanes : OperationLanes κ) (id other : WaiterId) :
    (lanes.letGo id).locksOf other = lanes.locksOf other := by
  unfold locksOf; rw [letGo_waiters]; split <;> simp_all

/-- Asking a hook only counts that it was asked. -/
theorem askRefuse_snd (lanes : OperationLanes κ) (label : String) (locks : List (LaneLock κ)) :
    ∃ asked, (lanes.askRefuse label locks).2 = { lanes with asked := asked } := by
  unfold askRefuse
  split
  · exact ⟨lanes.asked, rfl⟩
  · exact ⟨_, rfl⟩

theorem askPrecondition_snd (lanes : OperationLanes κ) (id : WaiterId) :
    ∃ asked, (lanes.askPrecondition id).2 = { lanes with asked := asked } := by
  unfold askPrecondition
  split
  · exact ⟨lanes.asked, rfl⟩
  · exact ⟨_, rfl⟩

/-! ## Moving one waiter -/

variable {lanes : OperationLanes κ} {dropped batch : List WaiterId}

theorem Placed.congr {lanes' : OperationLanes κ} (h : Placed batch dropped lanes)
    (waiters : lanes'.waiters = lanes.waiters) (waiting : lanes'.waiting = lanes.waiting)
    (nested : lanes'.nested = lanes.nested) (active : lanes'.active = lanes.active)
    (held : lanes'.held = lanes.held) (admitted : lanes'.admitted = lanes.admitted) :
    Placed batch dropped lanes' := by
  obtain ⟨_, _, _, _, _, _, _, _, _, _, _, _, _, _⟩ := lanes'
  subst waiters waiting nested active held admitted
  exact ⟨h.bound, h.unknown, h.waits, h.holds, h.once, h.activeOnce, h.ordinary, h.inner,
    h.inOrder, h.normalized, h.known, h.sums, h.apart, h.pending, h.settled⟩

theorem Placed.queues_remove (h : Placed batch dropped lanes) (id : WaiterId) :
    (lanes.remove id).waiting = lanes.waiting.erase id ∧ (lanes.remove id).nested = lanes.nested.erase id := by
  unfold OperationLanes.remove
  cases kind : (lanes.waiters id).nested with
  | true =>
    have notHere : id ∉ lanes.waiting := fun m => by simp [h.ordinary id m] at kind
    simp [erase_of_not_mem notHere]
  | false =>
    have notHere : id ∉ lanes.nested := fun m => by simp [h.inner id m] at kind
    simp [erase_of_not_mem notHere]

/-- Taking a waiter out of its queue, to be rejected. -/
theorem Placed.remove (h : Placed batch dropped lanes) (queued : id ∈ lanes.waiting ∨ id ∈ lanes.nested) :
    Placed batch (id :: dropped) (lanes.remove id) := by
  have once := h.once
  have shape := h.queues_remove id
  have perm : ((lanes.remove id).waiting ++ ((lanes.remove id).nested ++
      (batch ++ id :: dropped))).Perm (lanes.waiting ++ (lanes.nested ++ (batch ++ dropped))) := by
    rw [shape.1, shape.2]
    rcases queued with member | member
    · have notHere : id ∉ lanes.nested := by
        intro other
        exact (nodup_append.mp once).2.2 _ member _ (mem_append_left _ other) rfl
      rw [erase_of_not_mem notHere]
      have front : (lanes.waiting.erase id ++ (lanes.nested ++ (batch ++ id :: dropped))).Perm
          (id :: lanes.waiting.erase id ++ (lanes.nested ++ (batch ++ dropped))) := by
        simp only [← append_assoc, cons_append]
        exact perm_middle
      exact front.trans ((perm_cons_erase member).symm.append_right _)
    · have notHere : id ∉ lanes.waiting := by
        intro other
        exact (nodup_append.mp once).2.2 _ other _ (mem_append_left _ member) rfl
      rw [erase_of_not_mem notHere]
      have front : (lanes.nested.erase id ++ (batch ++ id :: dropped)).Perm
          (id :: lanes.nested.erase id ++ (batch ++ dropped)) := by
        simp only [← append_assoc, cons_append]
        exact perm_middle
      exact (front.trans ((perm_cons_erase member).symm.append_right _)).append_left _
  have member : ∀ other, (other ∈ (lanes.remove id).waiting ∨ other ∈ (lanes.remove id).nested ∨
      other ∈ batch ∨ other ∈ id :: dropped) ↔
      (other ∈ lanes.waiting ∨ other ∈ lanes.nested ∨ other ∈ batch ∨ other ∈ dropped) := by
    intro other
    have := perm.mem_iff (a := other)
    simpa only [mem_append] using this
  constructor
  · simpa using h.bound
  · simpa using h.unknown
  · intro other
    rw [remove_waiters, member]
    exact h.waits other
  · simpa using h.holds
  · exact perm.nodup_iff.mpr once
  · simpa using h.activeOnce
  · intro other among
    rw [remove_waiters]
    exact h.ordinary other (mem_of_mem_erase (shape.1 ▸ among))
  · intro other among
    rw [remove_waiters]
    exact h.inner other (mem_of_mem_erase (shape.2 ▸ among))
  · rw [shape.1]
    exact h.inOrder.sublist erase_sublist
  · simpa using h.normalized
  · simpa using h.known
  · have same : (lanes.remove id).locksOf = lanes.locksOf := by funext other; simp
    simpa [same] using h.sums
  · simpa using h.apart
  · simpa using h.pending
  · simpa using h.settled

/-- Rejecting a waiter that is out of line. -/
theorem Placed.conclude (h : Placed batch (id :: dropped) lanes) (how : Settled) :
    Placed batch dropped (lanes.conclude id how) := by
  have once := h.once
  have waiting : (lanes.waiters id).state = .waiting :=
    (h.waits id).mpr (by simp)
  have notActive : id ∉ lanes.active := by
    intro member
    rcases (h.holds id).mpr member with state | state <;> simp [waiting] at state
  have perm : (lanes.waiting ++ (lanes.nested ++ (batch ++ id :: dropped))).Perm
      (id :: (lanes.waiting ++ (lanes.nested ++ (batch ++ dropped)))) := by
    simp only [← append_assoc]
    exact perm_middle
  have once' := nodup_cons.mp (perm.nodup_iff.mp once)
  have absent := once'.1
  simp only [mem_append, not_or] at absent
  have locks : (lanes.conclude id how).locksOf = lanes.locksOf := by funext other; simp
  constructor
  · intro other
    rw [conclude_waiters]
    split
    · simp
    · exact h.bound other
  · intro other above
    rw [conclude_waiters]
    split
    · rename_i same; subst same; exact h.unknown other above
    · exact h.unknown other above
  · intro other
    rw [conclude_waiters]
    by_cases same : other = id
    · subst same
      simp only [if_true, reduceCtorEq, false_iff, not_or]
      exact ⟨absent.1, absent.2.1, absent.2.2.1, absent.2.2.2⟩
    · rw [if_neg same, h.waits other]
      simp only [mem_cons, same, false_or]
      rfl
  · intro other
    rw [conclude_waiters]
    by_cases same : other = id
    · subst same
      simp only [if_true, reduceCtorEq, or_self, false_iff]
      exact notActive
    · rw [if_neg same]
      exact h.holds other
  · exact once'.2
  · exact h.activeOnce
  · intro other among
    rw [conclude_waiters]
    split
    · rename_i same; subst same; exact h.ordinary other among
    · exact h.ordinary other among
  · intro other among
    rw [conclude_waiters]
    split
    · rename_i same; subst same; exact h.inner other among
    · exact h.inner other among
  · exact h.inOrder
  · intro other found
    rw [conclude_waiters]
    split
    · exact h.normalized id found
    · exact h.normalized other found
  · intro other among
    rw [conclude_waiters]
    split
    · rename_i same; subst same; exact h.known other among
    · exact h.known other among
  · rw [locks]; exact h.sums
  · rw [locks]; exact h.apart
  · intro other
    rw [conclude_waiters]
    split
    · simp
    · exact h.pending other
  · intro other
    rw [conclude_waiters]
    split
    · simp
    · exact h.settled other

theorem Placed.take (h : Placed batch (id :: dropped) lanes) {locks : List (LaneLock κ)}
    (found : (lanes.waiters id).locks = some locks)
    (free : ∀ lock ∈ locks, lanes.held.conflicts lock = false) :
    Placed (id :: batch) dropped { lanes with held := lanes.held.take locks } := by
  have own : lanes.locksOf id = locks := by simp [locksOf, found]
  have perm : (lanes.active ++ id :: batch).Perm (id :: (lanes.active ++ batch)) :=
    perm_middle
  have clear : ∀ other ∈ lanes.active ++ batch, ¬ Conflict (lanes.locksOf other) (lanes.locksOf id) := by
    intro other among
    rw [own]
    exact (h.sums.free_iff locks).mp free _ (mem_map_of_mem among)
  have move : (lanes.waiting ++ (lanes.nested ++ (id :: batch ++ dropped))).Perm
      (lanes.waiting ++ (lanes.nested ++ (batch ++ id :: dropped))) := by
    refine (Perm.append_left _ ?_).append_left _
    exact perm_middle.symm
  refine ⟨h.bound, h.unknown, ?_, h.holds, move.nodup_iff.mpr h.once, h.activeOnce, h.ordinary,
    h.inner, h.inOrder, h.normalized, ?_, ?_, ?_, h.pending, h.settled⟩
  · intro other
    refine (h.waits other).trans ?_
    simp only [mem_cons]
    tauto
  · intro other among
    rcases mem_cons.mp (perm.mem_iff.mp among) with rfl | among
    · simp [found]
    · exact h.known other among
  · have taken := h.sums.take (h.normalized id locks found)
    rw [← own, ← map_cons (f := lanes.locksOf)] at taken
    have := taken.perm (perm.symm.map lanes.locksOf)
    rwa [own] at this
  · refine (perm.pairwise_iff ?_).mpr (pairwise_cons.mpr ⟨fun other among => ?_, h.apart⟩)
    · exact fun apart clash => apart clash.symm
    · exact fun clash => clear other among clash.symm

/-- Starting a waiter that holds its locks. -/
theorem Placed.start {batch dropped : List WaiterId} {lanes : OperationLanes κ} {id : WaiterId}
    (h : Placed (id :: batch) dropped lanes) : Placed batch dropped (lanes.start id) := by
  have waiting : (lanes.waiters id).state = .waiting := (h.waits id).mpr (by simp)
  have notActive : id ∉ lanes.active := by
    intro member
    rcases (h.holds id).mpr member with state | state <;> simp [waiting] at state
  have active : (lanes.start id).active = lanes.active ++ [id] := by
    simp [OperationLanes.start, note, update, notActive]
  have perm : (lanes.waiting ++ (lanes.nested ++ (id :: batch ++ dropped))).Perm
      (id :: (lanes.waiting ++ (lanes.nested ++ (batch ++ dropped)))) := by
    simp only [← append_assoc, cons_append]
    have : (lanes.waiting ++ lanes.nested ++ id :: (batch ++ dropped)).Perm
        (id :: (lanes.waiting ++ lanes.nested ++ (batch ++ dropped))) := perm_middle
    simpa only [append_assoc, cons_append] using this
  have once' := nodup_cons.mp (perm.nodup_iff.mp h.once)
  have absent := once'.1
  simp only [mem_append, not_or] at absent
  have locks : (lanes.start id).locksOf = lanes.locksOf := by funext other; simp
  have regroup : (lanes.start id).active ++ batch = lanes.active ++ id :: batch := by
    rw [active]; simp
  constructor
  · intro other
    rw [start_waiters]
    split
    · rename_i same; subst same
      exact fun _ => h.bound other (by simp [waiting])
    · exact h.bound other
  · intro other above
    rw [start_waiters]
    split
    · rename_i same; subst same; exact h.unknown other above
    · exact h.unknown other above
  · intro other
    rw [start_waiters]
    by_cases same : other = id
    · subst same
      simp only [if_true, reduceCtorEq, false_iff, not_or]
      exact ⟨absent.1, absent.2.1, absent.2.2.1, absent.2.2.2⟩
    · rw [if_neg same, h.waits other]
      simp only [mem_cons, same, false_or]
      rfl
  · intro other
    rw [start_waiters, active]
    by_cases same : other = id
    · subst same; simp
    · rw [if_neg same, h.holds other]
      simp [same]
  · exact once'.2
  · rw [active]
    exact nodup_append.mpr ⟨h.activeOnce, nodup_singleton id, fun a ha b hb equal =>
      notActive ((mem_singleton.mp hb) ▸ equal ▸ ha)⟩
  · intro other among
    rw [start_waiters]
    split
    · rename_i same; subst same; exact h.ordinary other among
    · exact h.ordinary other among
  · intro other among
    rw [start_waiters]
    split
    · rename_i same; subst same; exact h.inner other among
    · exact h.inner other among
  · exact h.inOrder
  · intro other found
    rw [start_waiters]
    split
    · exact h.normalized id found
    · exact h.normalized other found
  · intro other among
    rw [regroup] at among
    rw [start_waiters]
    split
    · rename_i same; subst same; exact h.known other among
    · exact h.known other among
  · rw [regroup, locks]; exact h.sums
  · rw [regroup, locks]; exact h.apart
  · intro other
    rw [start_waiters]
    split
    · simp
    · exact h.pending other
  · intro other
    rw [start_waiters]
    by_cases same : other = id
    · subst same
      have := h.pending other waiting
      simp [settle, this.1, this.2]
    · rw [if_neg same]
      exact h.settled other

/-- Letting go of what an active waiter holds. -/
theorem Placed.letGo (h : Placed batch dropped lanes) (member : id ∈ lanes.active) :
    Placed batch dropped (lanes.letGo id) := by
  have holding := (h.holds id).mpr member
  have locks : (lanes.letGo id).locksOf = lanes.locksOf := by funext other; simp
  have perm : (lanes.active ++ batch).Perm (id :: (lanes.active.erase id ++ batch)) :=
    (perm_cons_erase member).append_right batch
  obtain ⟨own, found⟩ := Option.isSome_iff_exists.mp (h.known id (mem_append_left _ member))
  have ownLocks : lanes.locksOf id = own := by simp [locksOf, found]
  have apart : (id :: (lanes.active.erase id ++ batch)).Pairwise
      fun a b => ¬ Conflict (lanes.locksOf a) (lanes.locksOf b) :=
    (perm.pairwise_iff (fun apart clash => apart clash.symm)).mp h.apart
  have activeErase : ∀ other, other ∈ lanes.active.erase id ↔ other ≠ id ∧ other ∈ lanes.active :=
    fun other => h.activeOnce.mem_erase_iff
  constructor
  · intro other
    rw [letGo_waiters]
    split
    · simp
    · exact h.bound other
  · intro other above
    rw [letGo_waiters]
    split
    · rename_i same; subst same; exact h.unknown other above
    · exact h.unknown other above
  · intro other
    rw [letGo_waiters]
    by_cases same : other = id
    · subst same
      have notWaiting : ¬ (lanes.waiters other).state = .waiting := by
        rcases holding with state | state <;> simp [state]
      rw [h.waits other] at notWaiting
      simp only [if_true, reduceCtorEq, false_iff]
      exact notWaiting
    · rw [if_neg same]
      exact h.waits other
  · intro other
    rw [letGo_waiters]
    show _ ↔ other ∈ lanes.active.erase id
    rw [activeErase]
    by_cases same : other = id
    · simp [same]
    · rw [if_neg same, h.holds other]
      simp [same]
  · exact h.once
  · exact h.activeOnce.erase id
  · intro other among
    rw [letGo_waiters]
    split
    · rename_i same; subst same; exact h.ordinary other among
    · exact h.ordinary other among
  · intro other among
    rw [letGo_waiters]
    split
    · rename_i same; subst same; exact h.inner other among
    · exact h.inner other among
  · exact h.inOrder
  · intro other found
    rw [letGo_waiters]
    split
    · exact h.normalized id found
    · exact h.normalized other found
  · intro other among
    have held : other ∈ lanes.active ++ batch := perm.mem_iff.mpr (mem_cons_of_mem _ among)
    rw [letGo_waiters]
    split
    · rename_i same; subst same; exact h.known other held
    · exact h.known other held
  · rw [locks]
    have summed := h.sums.perm (perm.map lanes.locksOf)
    rw [map_cons, ownLocks] at summed
    have released := summed.release (h.normalized id own found) ?_
    · rw [← ownLocks] at released; exact released
    intro key strong
    rw [exclusiveCount, countP_eq_zero]
    intro other among
    obtain ⟨owner, hown, rfl⟩ := mem_map.mp among
    have := (pairwise_cons.mp apart).1 owner hown
    rw [ownLocks] at this
    simp only [decide_eq_true_eq]
    exact fun strong' => this ⟨_, strong, _, strong', rfl, Or.inl rfl⟩
  · rw [locks]
    exact (pairwise_cons.mp apart).2
  · intro other
    rw [letGo_waiters]
    split
    · simp
    · exact h.pending other
  · intro other
    rw [letGo_waiters]
    split
    · simp
    · exact h.settled other

end OperationLanes

end Kiln.Operations
