import Kiln.Operations.LanesRefusals

/-!
# What stands in a busy change's way

`packages/operations/src/lanes.ts`: `describe` says of everything in line what it waits on, over
both queues. `#inTheWay` says it of a newcomer, over the queue it is in. Here is when the two
agree, and when a change refused as busy is told something.
-/

namespace Kiln.Operations
open Kiln.Lib List

/-- What `describe` says of an operation that holds its locks (`lanes.ts:97-100`). -/
structure ActiveDescription (κ : Type) where
  label : String
  locks : List (LaneLock κ)

/-- What `describe` says of an operation in line (`lanes.ts:101-107`). -/
structure WaitingDescription (κ : Type) where
  label : String
  locks : Option (List (LaneLock κ))
  waitingOn : List (WaitReason String κ)

/-- `LaneDescription` (`lanes.ts:96-108`). -/
structure LaneDescription (κ : Type) where
  active : List (ActiveDescription κ)
  waiting : List (WaitingDescription κ)

variable {κ : Type} [LinearOrder κ]

namespace OperationLanes

/-- `describe` (`lanes.ts:269-291`). -/
def describe (lanes : OperationLanes κ) : LaneDescription κ :=
  let active := lanes.active.map lanes.occupant
  let queue := lanes.nested ++ lanes.waiting
  { active := active.map fun occupant => ⟨occupant.id, occupant.locks⟩
    waiting := queue.mapIdx fun index id =>
      { label := (lanes.waiters id).label
        locks := (lanes.waiters id).locks
        waitingOn :=
          match (lanes.waiters id).locks with
          | none => []
          | some locks => explainWait locks active ((queue.take index).map lanes.occupant) } }

/-- The reasons `describe` gives for an operation, where it shows it. -/
def waitingOn (lanes : OperationLanes κ) (id : WaiterId) : Option (List (WaitReason String κ)) :=
  (lanes.describe.waiting[(lanes.nested ++ lanes.waiting).idxOf id]?).map (·.waitingOn)

/-- The lanes when an admission in line is asked what it does when busy (`lanes.ts:315-339`). -/
def arrive (lanes : OperationLanes κ) (admission : LaneAdmission κ) (inside : Bool) : OperationLanes κ :=
  ((lanes.alloc (makeWaiter admission inside)).enqueue lanes.admitted admission.locks).grant

/-- An admission that is let in line, and isn't granted as it arrives. -/
def Busy (lanes : OperationLanes κ) (admission : LaneAdmission κ) (inside : Bool) : Prop :=
  lanes.turnsAway (makeWaiter admission inside) inside = none ∧
    ((lanes.arrive admission inside).waiters lanes.admitted).state = .waiting

section reasons

variable {lanes : OperationLanes κ} {locks : List (LaneLock κ)}

/-- Occupants give a reason exactly when one of them holds, or wants, a lock that conflicts. -/
theorem collectReasons_eq_nil (placed : Placed [] [] lanes) (holds : Bool) (ids : List WaiterId) :
    collectReasons locks holds (ids.map lanes.occupant) = [] ↔
      ∀ other ∈ ids, ¬ Conflict (lanes.locksOf other) locks := by
  have each : ∀ other, (∀ lock ∈ locks, (LockTable.empty.take (lanes.locksOf other)).conflicts lock = false) ↔
      ¬ Conflict (lanes.locksOf other) locks := by
    intro other
    have once : OneLockPerKey (lanes.locksOf other) := by
      unfold locksOf
      cases found : (lanes.waiters other).locks with
      | none => exact nodup_nil
      | some list => exact placed.normalized other list found
    rw [(LockTable.sums_empty.take once).free_iff]
    simp
  simp only [collectReasons, flatMap_eq_nil_iff, forall_mem_map, map_eq_nil_iff, filter_eq_nil_iff, Bool.not_eq_true]
  exact forall₂_congr fun other _ => each other

theorem explainWait_eq_nil (placed : Placed [] [] lanes) (holders ahead : List WaiterId) :
    explainWait locks (holders.map lanes.occupant) (ahead.map lanes.occupant) = [] ↔
      ∀ other ∈ holders ++ ahead, ¬ Conflict (lanes.locksOf other) locks := by
  rw [explainWait, append_eq_nil_iff, collectReasons_eq_nil placed, collectReasons_eq_nil placed, forall_mem_append]

/-- What is ahead of an operation that is last in its queue. -/
theorem takeWhile_last {id : WaiterId} {front : List WaiterId} (absent : id ∉ front) :
    (front ++ [id]).takeWhile (· ≠ id) = front := by
  have before : ∀ other ∈ front, decide (other ≠ id) = true := fun other member =>
    decide_eq_true (ne_of_mem_of_not_mem member absent)
  rw [takeWhile_append_of_pos before]
  simp

/-- What `describe` says of an operation it shows. -/
theorem waitingOn_eq {id : WaiterId} {ahead behind : List WaiterId}
    (queue : lanes.nested ++ lanes.waiting = ahead ++ id :: behind) (absent : id ∉ ahead)
    (known : (lanes.waiters id).locks = some locks) :
    lanes.waitingOn id = some (explainWait locks (lanes.active.map lanes.occupant) (ahead.map lanes.occupant)) := by
  have place : (ahead ++ id :: behind).idxOf id = ahead.length := by
    rw [idxOf_append_of_notMem absent, idxOf_cons_self, Nat.add_zero]
  simp [waitingOn, describe, queue, place, known]

end reasons

section arrivals

variable {lanes : OperationLanes κ} {admission : LaneAdmission κ} {inside : Bool} {locks : List (LaneLock κ)}

/-- What a newcomer that isn't granted at once is told, what `describe` says of it, and what is in its way. One that
arrives on its own isn't told of nested operations and continuations. -/
theorem arrive_reasons (sound : Sound lanes) (known : admission.locks = .known locks)
    (busy : lanes.Busy admission inside) :
    ∃ queue, (lanes.arrive admission inside).inTheWay lanes.admitted =
        explainWait (normalizeLocks locks) (lanes.active.map lanes.occupant) (queue.map lanes.occupant) ∧
      (((inside || admission.continuation) = true ∧ queue = lanes.nested ∧
          (lanes.arrive admission inside).waitingOn lanes.admitted =
            some (explainWait (normalizeLocks locks) (lanes.active.map lanes.occupant)
              (lanes.nested.map lanes.occupant)) ∧
          ∃ other ∈ lanes.active, Conflict (lanes.locksOf other) (normalizeLocks locks)) ∨
        ((inside || admission.continuation) = false ∧ queue = lanes.waiting ∧
          (lanes.arrive admission inside).waitingOn lanes.admitted =
            some (explainWait (normalizeLocks locks) (lanes.active.map lanes.occupant)
              ((lanes.nested ++ lanes.waiting).map lanes.occupant)) ∧
          ((∀ other ∈ lanes.waiting, (lanes.waiters other).locks.isSome = true) →
            ∃ other ∈ lanes.active ++ (lanes.nested ++ lanes.waiting),
              Conflict (lanes.locksOf other) (normalizeLocks locks)))) := by
  have absent := sound.placed.not_admitted
  have line := enqueue_enqueued sound.placed (makeWaiter_new admission inside) admission.locks
  have same : lanes.arrive admission inside = _ := line.grant_waiting sound busy.2
  have quiescent := (grant_granted line.placed).quiescent
  rw [line.grant_waiting sound busy.2] at quiescent
  rw [same]
  generalize (lanes.alloc (makeWaiter admission inside)).enqueue lanes.admitted admission.locks = lane at line quiescent
  have own : (lane.waiters lanes.admitted).locks = some (normalizeLocks locks) := by
    rw [line.own, known]
  have ownLocks : lane.locksOf lanes.admitted = normalizeLocks locks := by
    rw [locksOf, own]
    rfl
  have others : ∀ ids : List WaiterId, lanes.admitted ∉ ids → ids.map lane.occupant = ids.map lanes.occupant := by
    intro ids out
    refine map_congr_left fun other member => ?_
    rw [occupant, occupant, locksOf, locksOf, line.others other (ne_of_mem_of_not_mem member out)]
  have clashes : ∀ {ids : List WaiterId} {other : WaiterId}, lanes.admitted ∉ ids → other ∈ ids →
      Conflict (lane.locksOf other) (normalizeLocks locks) →
        ∃ other ∈ ids, Conflict (lanes.locksOf other) (normalizeLocks locks) := by
    intro ids other out member clash
    rw [locksOf, line.others other (ne_of_mem_of_not_mem member out)] at clash
    exact ⟨other, member, clash⟩
  have kind : (makeWaiter admission inside).nested = (inside || admission.continuation) := by
    cases inside <;> rfl
  have isNested : (lane.waiters lanes.admitted).nested = (inside || admission.continuation) := by
    rw [line.own, ← kind]
  have active := line.active
  have nested := line.nested
  have waiting := line.waiting
  rw [kind] at nested waiting
  cases which : inside || admission.continuation with
  | true =>
    rw [if_pos which] at nested waiting
    refine ⟨lanes.nested, ?_, .inl ⟨rfl, rfl, ?_, ?_⟩⟩
    · rw [inTheWay, isNested, which, if_pos rfl, nested, if_pos (by simp), takeWhile_last absent.2.2.1,
        ownLocks, active, others _ absent.1, others _ absent.2.2.1]
    · have queue : lane.nested ++ lane.waiting = lanes.nested ++ lanes.admitted :: lane.waiting := by
        rw [nested, append_assoc]
        rfl
      rw [waitingOn_eq queue absent.2.2.1 own, active, others _ absent.1, others _ absent.2.2.1]
    · obtain ⟨holder, holds, clash⟩ := quiescent.nested lanes.admitted (by simp [nested]) _ own
      exact clashes absent.1 (active ▸ holds) clash
  | false =>
    rw [if_neg (by simp [which])] at nested waiting
    have out : lanes.admitted ∉ lanes.nested ++ lanes.waiting := by
      rw [mem_append]
      exact fun member => member.elim absent.2.2.1 absent.2.1
    refine ⟨lanes.waiting, ?_, .inr ⟨rfl, rfl, ?_, fun allKnown => ?_⟩⟩
    · rw [inTheWay, isNested, which, if_neg Bool.false_ne_true, waiting, if_pos (by simp),
        takeWhile_last absent.2.1, ownLocks, active, others _ absent.1, others _ absent.2.1]
    · have queue : lane.nested ++ lane.waiting = (lanes.nested ++ lanes.waiting) ++ lanes.admitted :: [] := by
        rw [nested, waiting, append_assoc]
      rw [waitingOn_eq queue out own, active, others _ absent.1, others _ out]
    have isKnown : ∀ ahead ∈ lane.waiting, ahead ≤ lanes.admitted → (lane.waiters ahead).locks.isSome = true := by
      intro ahead member _
      by_cases itself : ahead = lanes.admitted
      · rw [itself, own]
        rfl
      · rw [waiting, mem_append] at member
        rw [line.others ahead itself]
        exact allKnown ahead (member.resolve_right fun last => itself (mem_singleton.mp last))
    have among : lanes.admitted ∉ lanes.active ++ (lanes.nested ++ lanes.waiting) := by
      rw [mem_append]
      exact fun member => member.elim absent.1 out
    rcases quiescent.line lanes.admitted (by simp [waiting]) isKnown with
      ⟨other, member, clash⟩ | ⟨ahead, member, less, clash⟩
    · rw [active, nested] at member
      refine clashes among ?_ (ownLocks ▸ clash)
      rw [← append_assoc]
      exact mem_append_left _ member
    · rw [waiting, mem_append] at member
      have before := member.resolve_right fun last => less.ne (mem_singleton.mp last)
      exact clashes among (mem_append_right _ (mem_append_right _ before)) (ownLocks ▸ clash)

/-- What a waiter refused as busy is told. -/
def busyRefusal (label : String) (inTheWay : List (WaitReason String κ)) : LaneRejectedError where
  reason := .busy
  message := label ++ " is waiting on " ++ ", ".intercalate (inTheWay.map WaitReason.id).eraseDups
  blockedBy := some (inTheWay.map WaitReason.id).eraseDups

/-- Whether a newcomer is refused for what is in its way. -/
def refuses (asked : Nat) (inTheWay : List (WaitReason String κ)) : Option (WhenBusy κ) → Bool
  | some .refuse => true
  | some (.decide answer) => answer asked inTheWay
  | some .wait | none => false

theorem settleBusy_granted {id : WaiterId} (waiting : (lanes.waiters id).state = .waiting)
    (pending : (lanes.waiters id).granted = none) (whenBusy : Option (WhenBusy κ)) :
    ((lanes.settleBusy id whenBusy).waiters id).granted =
      if refuses lanes.asked (lanes.inTheWay id) whenBusy then
        some (.fail (busyRefusal (lanes.waiters id).label (lanes.inTheWay id)))
      else none := by
  have told : ∀ (lanes' : OperationLanes κ), lanes'.waiters = lanes.waiters →
      ((lanes'.refuseBusy id (lanes.inTheWay id)).waiters id).granted =
        some (.fail (busyRefusal (lanes.waiters id).label (lanes.inTheWay id))) := by
    intro lanes' same
    unfold refuseBusy reject
    dsimp only
    rw [conclude_waiters, if_pos rfl, remove_waiters, same, pending]
    rfl
  unfold settleBusy
  rw [if_neg (by simp [waiting])]
  split
  · exact pending
  · exact pending
  · exact told lanes rfl
  rename_i answer
  by_cases yes : answer lanes.asked (lanes.inTheWay id) = true
  · simp only [refuses, yes, if_true]
    exact told _ rfl
  · simp only [refuses, yes]
    exact pending

/-- What a change that isn't granted at once is told is what `describe` says, and names something. -/
structure BusyExplained (lanes : OperationLanes κ) (admission : LaneAdmission κ) (inside : Bool) : Prop where
  complete : (lanes.arrive admission inside).waitingOn lanes.admitted =
    some ((lanes.arrive admission inside).inTheWay lanes.admitted)
  named : (lanes.arrive admission inside).inTheWay lanes.admitted ≠ []
  refused : ∀ error, ((lanes.admitWaiter admission inside).waiters lanes.admitted).granted = some (.fail error) →
    ∃ name others, error.blockedBy = some (name :: others)
  asked : ∀ answer key reasons, admission.whenBusy = some (.decide answer) →
    (∀ asked reasons, key ∈ reasons.map WaitReason.key → answer asked reasons = true) →
    (lanes.arrive admission inside).waitingOn lanes.admitted = some reasons →
    key ∈ reasons.map WaitReason.key →
    ∃ error, ((lanes.admitWaiter admission inside).waiters lanes.admitted).granted = some (.fail error) ∧
      error.reason = .busy

/-- The rest follows from the reasons being those `describe` gives, and not none. -/
theorem BusyExplained.of_reasons (sound : Sound lanes) (busy : lanes.Busy admission inside)
    (complete : (lanes.arrive admission inside).waitingOn lanes.admitted =
      some ((lanes.arrive admission inside).inTheWay lanes.admitted))
    (named : (lanes.arrive admission inside).inTheWay lanes.admitted ≠ []) :
    lanes.BusyExplained admission inside := by
  have line := enqueue_enqueued sound.placed (makeWaiter_new admission inside) admission.locks
  have placed : Placed [] [] (lanes.arrive admission inside) := (grant_granted line.placed).placed
  have settled := settleBusy_granted busy.2 (placed.pending _ busy.2).1 admission.whenBusy
  have is : lanes.admitWaiter admission inside =
      (lanes.arrive admission inside).settleBusy lanes.admitted admission.whenBusy := by
    unfold admitWaiter
    dsimp only
    rw [busy.1]
    rfl
  rw [← is] at settled
  refine ⟨complete, named, fun error failed => ?_, fun answer key reasons whenBusy refuses_ shown member => ?_⟩
  · rw [settled] at failed
    split at failed
    · cases failed
      obtain ⟨reason, more, shape⟩ := exists_cons_of_ne_nil named
      rw [busyRefusal, shape, map_cons, eraseDups_cons]
      exact ⟨_, _, rfl⟩
    · cases failed
  · cases shown.symm.trans complete
    rw [whenBusy, refuses, if_pos (refuses_ _ _ member)] at settled
    exact ⟨_, settled, rfl⟩

end arrivals

end OperationLanes

namespace LaneWorld
open OperationLanes

/-- In every reachable state, a change that isn't granted at once is told what `describe` says,
    and told something, exactly when: it runs inside another, or is a continuation; or no nested
    operation and no continuation waits for what it does, and either the locks of all in line
    are known or one that runs, or is in line, is in its way. -/
theorem busyExplained_iff (options : OperationLanesOptions κ) {world : LaneWorld κ}
    (reached : (laneSystem options).Reachable world) {admission : LaneAdmission κ} {inside : Bool}
    {locks : List (LaneLock κ)} (known : admission.locks = .known locks)
    (busy : world.lanes.Busy admission inside) :
    world.lanes.BusyExplained admission inside ↔
      (inside || admission.continuation) = true ∨
      ((∀ other ∈ world.lanes.nested, ¬ Conflict (world.lanes.locksOf other) (normalizeLocks locks)) ∧
        ((∀ other ∈ world.lanes.waiting, (world.lanes.waiters other).locks.isSome = true) ∨
          ∃ other ∈ world.lanes.active ++ world.lanes.waiting,
            Conflict (world.lanes.locksOf other) (normalizeLocks locks))) := by
  have sound := (coherent_of_reachable reached).sound
  have placed := sound.placed
  obtain ⟨queue, told, ⟨within, rfl, shown, obstructed⟩ | ⟨alone, rfl, shown, obstructed⟩⟩ :=
    arrive_reasons sound known busy
  · refine iff_of_true (.of_reasons sound busy (by rw [shown, told]) fun nothing => ?_) (.inl within)
    rw [told, explainWait_eq_nil placed] at nothing
    obtain ⟨other, member, clash⟩ := obstructed
    exact nothing other (mem_append_left _ member) clash
  · rw [alone]
    have complete_iff : (world.lanes.arrive admission inside).waitingOn world.lanes.admitted =
        some ((world.lanes.arrive admission inside).inTheWay world.lanes.admitted) ↔
        ∀ other ∈ world.lanes.nested, ¬ Conflict (world.lanes.locksOf other) (normalizeLocks locks) := by
      rw [shown, told, ← collectReasons_eq_nil placed false, Option.some_inj, explainWait, explainWait,
        append_cancel_left_eq, collectReasons, collectReasons, collectReasons, map_append,
        flatMap_append, append_left_eq_self]
    have named_iff : (world.lanes.arrive admission inside).inTheWay world.lanes.admitted ≠ [] ↔
        ∃ other ∈ world.lanes.active ++ world.lanes.waiting,
          Conflict (world.lanes.locksOf other) (normalizeLocks locks) := by
      rw [told, ne_eq, explainWait_eq_nil placed]
      push Not
      rfl
    constructor
    · intro explained
      exact .inr ⟨complete_iff.mp explained.complete, .inr (named_iff.mp explained.named)⟩
    intro either
    obtain ⟨free, allKnown | inTheWay⟩ := either.resolve_left (by simp)
    · refine .of_reasons sound busy (complete_iff.mpr free) (named_iff.mpr ?_)
      obtain ⟨other, member, clash⟩ := obstructed allKnown
      rw [mem_append, mem_append] at member
      refine ⟨other, mem_append.mpr (member.imp_right fun ahead => ?_), clash⟩
      exact ahead.resolve_left fun nested => free other nested clash
    · exact .of_reasons sound busy (complete_iff.mpr free) (named_iff.mpr inTheWay)

/-- A change runs, and one that carries another on waits for its app, and wants another. -/
def carriedOnCalls : List (LaneCall String) :=
  [.admitTicket { label := "first", locks := .known [exclusive "app"] }, .admitTicket
      { label := "second", locks := .known [exclusive "app", exclusive "other"], continuation := true }]

def carriedOn : LaneWorld String :=
  (runAll LaneWorld.step (initial {}) carriedOnCalls).get (by decide)

theorem carriedOn_reachable : (laneSystem {}).Reachable carriedOn :=
  System.reachable_of_runAll (· = initial {}) LaneWorld.step rfl carriedOnCalls (by decide)

/-- A change that would rather not queue. -/
def rather (key : String) : LaneAdmission String :=
  { label := "third", locks := .known [exclusive key], whenBusy := some .refuse }

/-- It waits for what the one carried on waits for, is turned away, and is told of nothing. -/
theorem busy_unnamed :
    (laneSystem {}).Reachable carriedOn ∧ carriedOn.lanes.Busy (rather "other") false ∧
      (carriedOn.lanes.arrive (rather "other") false).inTheWay 2 = [] ∧
      (carriedOn.lanes.arrive (rather "other") false).waitingOn 2 = some [⟨"second", "other", false⟩] ∧
      ((carriedOn.lanes.admitWaiter (rather "other") false).waiters 2).granted =
        some (.fail { reason := .busy, message := "third is waiting on ", blockedBy := some [] }) :=
  ⟨carriedOn_reachable, ⟨by decide, by decide⟩, by decide, by decide, by decide⟩

theorem busyExplained_iff_carriedOn :
    ¬ carriedOn.lanes.BusyExplained (rather "other") false := by
  have known : (rather "other").locks = .known [exclusive "other"] := rfl
  rw [busyExplained_iff {} carriedOn_reachable known ⟨by decide, by decide⟩]
  decide

end LaneWorld

end Kiln.Operations
