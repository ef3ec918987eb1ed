import Mathlib
import Kiln.Lib.Transition

/-!
# The update lock of a container

`acquireTargetLockEffect` and `releaseTargetLockEffect` (`apps/relay/src/system-updates.ts:1487-1594`) over one
container's lock file. Each file operation is a step of its own, and the calls of all processes interleave.
An operation's ID is made for it, so that it asks for the lock once. The lock file is a link of the
operation's candidate: it is there with its owner in it, and it is as old as the candidate.

`acquireOperationLocksEffect` makes these calls one after the other, and releases what it has taken where one
of them fails: calls like any other here. A file operation that fails for another reason than that the file exists or is missing has done nothing.
The platform's renewal of its own lock is left out.
-/

namespace Kiln.Relay
open Kiln.Lib Function Option

/-- `ORPHAN_LOCK_MS`. -/
def orphanLockMs : Nat := 30000

/-- The lock file: the ID in it, and its `mtimeMs`. -/
structure LockFile where
  owner : String
  mtimeMs : Nat
  deriving DecidableEq, Repr

/-- The `status` of an operation's record, as far as the lock is concerned. -/
inductive RelayOperationStatus where
  | running
  | ended
  deriving DecidableEq, Repr

/-- An operation's record. The code doesn't read when it was first written. -/
structure OperationRecord where
  status : RelayOperationStatus
  writtenAt : Nat
  deriving DecidableEq, Repr

/-- Why the lock isn't given. -/
inductive LockRefusal where
  | repairing
  | starting
  | running
  | system
  deriving DecidableEq, Repr

/-- The text of a refusal, but for the texts of the system's own errors. -/
def LockRefusal.message (container : String) : LockRefusal → Option String
  | .repairing => some s!"Kiln is repairing {container}; try again in a moment"
  | .starting => some s!"An update is starting for {container}"
  | .running => some s!"An update is already running for {container}"
  | .system => none

/-- The refusal while a holder has no record yet. -/
def refusalWithoutRecord (existingId : String) : LockRefusal :=
  if existingId.startsWith "platform-" then .repairing else .starting

/-- Where a call of `acquireTargetLockEffect` is: the file operation that it makes next. -/
inductive AcquireCall where
  | idle
  | writeCandidate
  | link
  | readLock
  | readRecord (existingId : String)
  | statLock (existingId : String)
  | readForRelease (existingId : String)
  | release (existingId : String)
  | cleanUp
  | finish (result : Except LockRefusal Unit)
  | returned (result : Except LockRefusal Unit)
  | dead

/-- Where a call of `releaseTargetLockEffect` is. -/
inductive ReleaseCall where
  | readForRelease (operationId : String)
  | release (operationId : String)
  deriving DecidableEq, Repr

/-- The files, the calls that are under way and the clock. `acquired` and `released` are noted by nothing but the model:
when an operation took the lock, and whether a release of its own has removed it. -/
structure LockState where
  now : Nat := 0
  lock : Option LockFile := none
  candidates : String → Option Nat := fun _ => none
  records : String → Option OperationRecord := fun _ => none
  acquires : String → AcquireCall := fun _ => .idle
  releases : Nat → Option ReleaseCall := fun _ => none
  acquired : String → Option Nat := fun _ => none
  released : String → Bool := fun _ => false

inductive LockEvent where
  | tick (ms : Nat)
  | acquire (operation : String)
  | acquireStep (operation : String)
  | acquireFails (operation : String)
  | acquireDies (operation : String)
  | release (call : Nat) (operationId : String)
  | releaseStep (call : Nat)
  | releaseFails (call : Nat)
  | releaseDies (call : Nat)
  | record (operation : String) (status : RelayOperationStatus)

namespace LockState

/-- The call for `operation` goes on with `call`. -/
def goes (s : LockState) (operation : String) (call : AcquireCall) : LockState :=
  { s with acquires := Function.update s.acquires operation call }

/-- The file under the path names `operation`. -/
def names (s : LockState) (operation : String) : Bool :=
  s.lock.any (·.owner = operation)

/-- `lockIsOrphanedEffect`. A lock that is gone counts as orphaned. -/
def lockIsOrphaned (s : LockState) : Bool :=
  s.lock.all fun file => orphanLockMs < s.now - file.mtimeMs

/-- The next file operation of `acquireTargetLockEffect`. -/
def acquireNext (s : LockState) (operation : String) : Option LockState :=
  match s.acquires operation with
  | .idle | .returned _ | .dead => none
  | .writeCandidate =>
    if (s.candidates operation).isSome then
      some (s.goes operation (.finish (.error .system)))
    else
      some { s.goes operation .link with
        candidates := Function.update s.candidates operation (some s.now) }
  | .link =>
    match s.candidates operation, s.lock with
    | none, _ => some (s.goes operation (.finish (.error .system)))
    | some _, some _ => some (s.goes operation .readLock)
    | some mtimeMs, none =>
      some { s.goes operation (.finish (.ok ())) with
        lock := some ⟨operation, mtimeMs⟩
        acquired := Function.update s.acquired operation (some s.now) }
  | .readLock =>
    match s.lock with
    | none => some (s.goes operation (.finish (.error .system)))
    | some file => some (s.goes operation (.readRecord file.owner))
  | .readRecord existingId =>
    match s.records existingId with
    | none => some (s.goes operation (.statLock existingId))
    | some record =>
      if record.status = .running then some (s.goes operation (.finish (.error .running)))
      else some (s.goes operation (.readForRelease existingId))
  | .statLock existingId =>
    if s.lockIsOrphaned then some (s.goes operation (.readForRelease existingId))
    else some (s.goes operation (.finish (.error (refusalWithoutRecord existingId))))
  | .readForRelease existingId =>
    if s.names existingId then some (s.goes operation (.release existingId))
    else some (s.goes operation .cleanUp)
  | .release _ => some { s.goes operation .cleanUp with lock := none }
  | .cleanUp =>
    some { s.goes operation .writeCandidate with
      candidates := Function.update s.candidates operation none }
  | .finish result =>
    some { s.goes operation (.returned result) with
      candidates := Function.update s.candidates operation none }

/-- What a file operation that fails makes of `acquireTargetLockEffect`. Candidates are removed as far as that goes. -/
def acquireFailsNext (s : LockState) (operation : String) : Option LockState :=
  match s.acquires operation with
  | .idle | .returned _ | .dead => none
  | .cleanUp => some (s.goes operation .writeCandidate)
  | .finish result => some (s.goes operation (.returned result))
  | _ => some (s.goes operation (.finish (.error .system)))

/-- The next file operation of `releaseTargetLockEffect`. -/
def releaseNext (s : LockState) (call : Nat) : Option LockState :=
  match s.releases call with
  | none => none
  | some (.readForRelease operationId) =>
    if s.names operationId then
      some { s with releases := Function.update s.releases call (some (.release operationId)) }
    else
      some { s with releases := Function.update s.releases call none }
  | some (.release operationId) =>
    some { s with
      lock := none
      releases := Function.update s.releases call none
      released := Function.update s.released operationId true }

/-- Writes an operation's record. One that has ended stays so. -/
def recordNext (s : LockState) (operation : String) (status : RelayOperationStatus) : Option LockState :=
  match s.records operation with
  | none => some { s with records := Function.update s.records operation (some ⟨status, s.now⟩) }
  | some ⟨.running, writtenAt⟩ =>
    some { s with records := Function.update s.records operation (some ⟨status, writtenAt⟩) }
  | some ⟨.ended, _⟩ => none

def next (s : LockState) : LockEvent → Option LockState
  | .tick ms => some { s with now := s.now + ms }
  | .acquire operation =>
    match s.acquires operation with
    | .idle => some (s.goes operation .writeCandidate)
    | _ => none
  | .acquireStep operation => s.acquireNext operation
  | .acquireFails operation => s.acquireFailsNext operation
  | .acquireDies operation =>
    match s.acquires operation with
    | .idle | .returned _ => none
    | _ => some (s.goes operation .dead)
  | .release call operationId =>
    match s.releases call with
    | none =>
      some { s with releases := Function.update s.releases call (some (.readForRelease operationId)) }
    | some _ => none
  | .releaseStep call => s.releaseNext call
  | .releaseFails call | .releaseDies call =>
    match s.releases call with
    | none => none
    | some _ => some { s with releases := Function.update s.releases call none }
  | .record operation status => s.recordNext operation status

/-! ## Who holds the lock -/

/-- The operation's record says that it is no longer running. -/
def ended (s : LockState) (operation : String) : Bool :=
  (s.records operation).any (·.status = .ended)

/-- Since it took the lock, the operation was without a record for longer than `ORPHAN_LOCK_MS`. -/
def leftWithoutRecord (s : LockState) (operation : String) : Bool :=
  (s.acquired operation).any fun since =>
    orphanLockMs < ((s.records operation).elim s.now (·.writtenAt)) - since

/-- The operation took the lock, has not released it, has not ended and was not left without a record. -/
def holds (s : LockState) (operation : String) : Bool :=
  (s.acquired operation).isSome && !s.released operation && !s.ended operation && !s.leftWithoutRecord operation

/-- The lock has one holder at most, and its file is there and names it. -/
structure OneHolder (s : LockState) : Prop where
  one : ∀ a b, s.holds a = true → s.holds b = true → a = b
  named : ∀ a, s.holds a = true → s.names a = true

/-- No removal comes late, and no stat: the lock file that a removal meets is the one its release has read, and where a
call finds the lock it has read to be orphaned, its operation still has no record and took it longer than
`ORPHAN_LOCK_MS` ago. -/
def timely (s : LockState) : LockEvent → Bool
  | .acquireStep operation =>
    match s.acquires operation with
    | .statLock existingId =>
      !(s.names existingId && s.lockIsOrphaned) ||
        (s.records existingId).isNone && (s.acquired existingId).any (orphanLockMs < s.now - ·)
    | .release existingId => s.lock.isNone || s.names existingId
    | _ => true
  | .releaseStep call =>
    match s.releases call with
    | some (.release operationId) => s.lock.isNone || s.names operationId
    | _ => true
  | _ => true

end LockState

/-- The lock's runs, from no lock, no records and no calls. -/
def lockSystem : System LockState LockEvent :=
  .ofFunction (· = {}) LockState.next

namespace AcquireCall

/-- The call has not come to an end, and has not taken the lock. -/
def asks : AcquireCall → Bool
  | .finish _ | .returned _ | .dead => false
  | _ => true

/-- The owner that the call has read in the lock file. -/
def existing : AcquireCall → Option String
  | .readRecord x | .statLock x | .readForRelease x | .release x => some x
  | _ => none

/-- The owner that the call takes the lock over from. -/
def takesOver : AcquireCall → Option String
  | .readForRelease x | .release x => some x
  | _ => none

end AcquireCall

namespace LockState

variable {s s' : LockState} {operation x : String}

/-! ## What a step leaves -/

/-- What a step leaves of the holders and of the lock, whatever it does. -/
structure Ages (s s' : LockState) : Prop where
  acquired : ∀ x, (s.acquired x).isSome = true → (s'.acquired x).isSome = true
  holds : ∀ x, (s.acquired x).isSome = true → s'.holds x = true → s.holds x = true
  names : ∀ x, s'.names x = true → s.names x = true ∨ s.acquired x = none

/-- What `acquireTargetLockEffect` does in one step: it goes on without a change to the lock, it takes the lock, or it
removes the lock. -/
theorem acquireNext_cases (step : s.acquireNext operation = some s') :
    ∃ call, s'.acquires = Function.update s.acquires operation call ∧ s'.now = s.now ∧
      s'.records = s.records ∧ s'.released = s.released ∧
      ((s'.lock = s.lock ∧ s'.acquired = s.acquired ∧ (call.asks = true → (s.acquires operation).asks = true) ∧
          (∀ x, call.existing = some x → (s.acquires operation).existing = some x ∨ s.names x = true) ∧
          ∀ x, call.takesOver = some x → (s.acquires operation).takesOver = some x ∨ s.ended x = true ∨
            s.acquires operation = .statLock x ∧ s.lockIsOrphaned = true) ∨
        (s.acquires operation = .link ∧ s.lock = none ∧ call = .finish (.ok ()) ∧
          s'.acquired = Function.update s.acquired operation (some s.now) ∧
          ∃ mtimeMs, s'.lock = some ⟨operation, mtimeMs⟩) ∨
        ∃ x, s.acquires operation = .release x ∧ s'.lock = none ∧ s'.acquired = s.acquired ∧ call = .cleanUp) := by
  unfold acquireNext at step
  cases at_ : s.acquires operation with
  | idle | returned | dead => rw [at_] at step; cases step
  | writeCandidate =>
    simp only [at_] at step
    split at step <;> obtain rfl := Option.some.inj step
    · exact ⟨_, rfl, rfl, rfl, rfl, .inl ⟨rfl, rfl, by simp [AcquireCall.asks], by simp [AcquireCall.existing],
        by simp [AcquireCall.takesOver]⟩⟩
    · exact ⟨_, rfl, rfl, rfl, rfl, .inl ⟨rfl, rfl, by simp [AcquireCall.asks], by simp [AcquireCall.existing],
        by simp [AcquireCall.takesOver]⟩⟩
  | link =>
    simp only [at_] at step
    cases candidate : s.candidates operation with
    | none =>
      cases by simpa only [candidate] using step
      exact ⟨_, rfl, rfl, rfl, rfl, .inl ⟨rfl, rfl, by simp [AcquireCall.asks], by simp [AcquireCall.existing],
        by simp [AcquireCall.takesOver]⟩⟩
    | some mtimeMs =>
      cases lock : s.lock with
      | none =>
        simp only [candidate, lock] at step
        cases step
        exact ⟨_, rfl, rfl, rfl, rfl, .inr (.inl ⟨rfl, rfl, rfl, rfl, _, rfl⟩)⟩
      | some file =>
        simp only [candidate, lock] at step
        cases step
        exact ⟨_, rfl, rfl, rfl, rfl, .inl ⟨lock, rfl, by simp [AcquireCall.asks],
          by simp [AcquireCall.existing], by simp [AcquireCall.takesOver]⟩⟩
  | readLock =>
    simp only [at_] at step
    cases lock : s.lock with
    | none =>
      simp only [lock] at step
      cases step
      exact ⟨_, rfl, rfl, rfl, rfl, .inl ⟨lock, rfl, by simp [AcquireCall.asks], by simp [AcquireCall.existing],
        by simp [AcquireCall.takesOver]⟩⟩
    | some file =>
      simp only [lock] at step
      cases step
      refine ⟨_, rfl, rfl, rfl, rfl, .inl ⟨lock, rfl, by simp [AcquireCall.asks], fun x is => .inr ?_,
        by simp [AcquireCall.takesOver]⟩⟩
      cases is
      simp [names, lock]
  | readRecord existingId =>
    simp only [at_] at step
    cases record : s.records existingId with
    | none =>
      simp only [record] at step
      cases step
      exact ⟨_, rfl, rfl, rfl, rfl, .inl ⟨rfl, rfl, by simp [AcquireCall.asks], fun x is => .inl is,
        by simp [AcquireCall.takesOver]⟩⟩
    | some r =>
      simp only [record] at step
      split at step
      · cases step
        exact ⟨_, rfl, rfl, rfl, rfl, .inl ⟨rfl, rfl, by simp [AcquireCall.asks],
          by simp [AcquireCall.existing], by simp [AcquireCall.takesOver]⟩⟩
      rename_i notRunning
      cases step
      refine ⟨_, rfl, rfl, rfl, rfl, .inl ⟨rfl, rfl, by simp [AcquireCall.asks], fun x is => .inl is,
        fun x is => .inr (.inl ?_)⟩⟩
      cases is
      have hasEnded : r.status = .ended := by cases status : r.status <;> simp_all
      simp [ended, record, hasEnded]
  | statLock existingId =>
    simp only [at_] at step
    split at step
    · rename_i orphaned
      cases step
      refine ⟨_, rfl, rfl, rfl, rfl, .inl ⟨rfl, rfl, by simp [AcquireCall.asks], fun x is => .inl is,
        fun x is => .inr (.inr ⟨?_, orphaned⟩)⟩⟩
      rw [Option.some.inj is]
    · cases step
      exact ⟨_, rfl, rfl, rfl, rfl, .inl ⟨rfl, rfl, by simp [AcquireCall.asks], by simp [AcquireCall.existing],
        by simp [AcquireCall.takesOver]⟩⟩
  | readForRelease existingId =>
    simp only [at_] at step
    split at step <;> obtain rfl := Option.some.inj step
    · exact ⟨_, rfl, rfl, rfl, rfl, .inl ⟨rfl, rfl, by simp [AcquireCall.asks], fun x is => .inl is,
        fun x is => .inl is⟩⟩
    · exact ⟨_, rfl, rfl, rfl, rfl, .inl ⟨rfl, rfl, by simp [AcquireCall.asks], by simp [AcquireCall.existing],
        by simp [AcquireCall.takesOver]⟩⟩
  | release existingId =>
    simp only [at_] at step
    cases step
    exact ⟨_, rfl, rfl, rfl, rfl, .inr (.inr ⟨_, rfl, rfl, rfl, rfl⟩)⟩
  | cleanUp =>
    simp only [at_] at step
    cases step
    exact ⟨_, rfl, rfl, rfl, rfl, .inl ⟨rfl, rfl, by simp [AcquireCall.asks], by simp [AcquireCall.existing],
      by simp [AcquireCall.takesOver]⟩⟩
  | finish result =>
    simp only [at_] at step
    cases step
    exact ⟨_, rfl, rfl, rfl, rfl, .inl ⟨rfl, rfl, by simp [AcquireCall.asks], by simp [AcquireCall.existing],
      by simp [AcquireCall.takesOver]⟩⟩

/-- A step that leaves the clock, the records, what was taken and what was released leaves the holders. -/
theorem holds_congr (now : s'.now = s.now) (records : s'.records = s.records)
    (acquired : s'.acquired x = s.acquired x) (released : s'.released x = s.released x) :
    s'.holds x = s.holds x := by
  simp only [holds, ended, leftWithoutRecord, now, records, acquired, released]

theorem leftWithoutRecord_tick (ms : Nat) (left : s.leftWithoutRecord x = true) :
    leftWithoutRecord { s with now := s.now + ms } x = true := by
  simp only [leftWithoutRecord, any_eq_true, decide_eq_true_eq] at left ⊢
  rcases left with ⟨since, taken, left⟩
  refine ⟨since, taken, ?_⟩
  cases record : s.records x with
  | none =>
    simp only [record, elim_none] at left ⊢
    omega
  | some r => simpa only [record, elim_some] using left

/-- Writing a record ends no time without one, and brings back no operation that ended. -/
theorem holds_record {status : RelayOperationStatus} (step : s.recordNext operation status = some s')
    (holder : s'.holds x = true) : s.holds x = true := by
  unfold recordNext at step
  by_cases same : operation = x
  · subst same
    cases record : s.records operation with
    | none =>
      simp only [record] at step
      cases step
      simp only [holds, ended, leftWithoutRecord, update_self, elim_some, Bool.and_eq_true] at holder
      simp only [holds, ended, leftWithoutRecord, record, elim_none, any_none, Bool.and_eq_true]
      exact ⟨⟨holder.1.1, rfl⟩, holder.2⟩
    | some r =>
      rcases r with ⟨_ | _, writtenAt⟩
      · simp only [record] at step
        cases step
        simp only [holds, ended, leftWithoutRecord, update_self, elim_some, Bool.and_eq_true] at holder
        simp only [holds, ended, leftWithoutRecord, record, elim_some, any_some, Bool.and_eq_true]
        exact ⟨⟨holder.1.1, by simp⟩, holder.2⟩
      · simp only [record] at step
        cases step
  · have elsewhere : s'.records x = s.records x ∧ s'.now = s.now ∧ s'.acquired = s.acquired ∧
        s'.released = s.released := by
      split at step
      · cases step
        exact ⟨update_of_ne (Ne.symm same) _ _, rfl, rfl, rfl⟩
      · cases step
        exact ⟨update_of_ne (Ne.symm same) _ _, rfl, rfl, rfl⟩
      · cases step
    rcases elsewhere with ⟨records, now, acquired, released⟩
    simpa only [holds, ended, leftWithoutRecord, records, now, acquired, released] using holder

theorem recordNext_keeps {status : RelayOperationStatus} (step : s.recordNext operation status = some s') :
    s'.lock = s.lock ∧ s'.acquired = s.acquired ∧ s'.acquires = s.acquires := by
  unfold recordNext at step
  split at step
  · cases step
    exact ⟨rfl, rfl, rfl⟩
  · cases step
    exact ⟨rfl, rfl, rfl⟩
  · cases step

/-! ## What holds in a timely run -/

/-- A holder is named by the lock file; who is named has taken the lock, who still asks for it has not, and who is taken
over from has; and who is taken over from holds the lock no more, if it is still named. -/
structure Kept (s : LockState) : Prop where
  named : ∀ x, s.holds x = true → s.names x = true
  taken : ∀ x, s.names x = true → (s.acquired x).isSome = true
  fresh : ∀ x, (s.acquires x).asks = true → s.acquired x = none
  met : ∀ operation x, (s.acquires operation).existing = some x → (s.acquired x).isSome = true
  spent : ∀ operation x, (s.acquires operation).takesOver = some x → s.names x = true → s.holds x = false

variable {call : AcquireCall}

theorem existing_of_takesOver (takes : call.takesOver = some x) : call.existing = some x := by
  cases call <;> simp_all [AcquireCall.takesOver, AcquireCall.existing]

/-- The lock names one operation only. -/
theorem eq_of_names {y : String} (first : s.names x = true) (second : s.names y = true) : x = y := by
  simp only [names, any_eq_true, decide_eq_true_eq] at first second
  rcases first with ⟨file, lock, rfl⟩
  rcases second with ⟨_, same, rfl⟩
  rw [Option.some.inj (lock.symm.trans same)]

theorem Kept.oneHolder (kept : s.Kept) : s.OneHolder :=
  ⟨fun a b first second => eq_of_names (kept.named a first) (kept.named b second), kept.named⟩

theorem kept_init : Kept {} where
  named := by simp [holds]
  taken := by simp [names]
  fresh := by simp
  met := by simp [AcquireCall.existing]
  spent := by simp [AcquireCall.takesOver]

theorem Kept.of_call (kept : s.Kept) (ages : s.Ages s')
    (acquires : s'.acquires = Function.update s.acquires operation call)
    (named : ∀ x, s'.holds x = true → s'.names x = true)
    (taken : ∀ x, s'.names x = true → (s'.acquired x).isSome = true)
    (fresh : ∀ x, (s'.acquires x).asks = true → s'.acquired x = none)
    (met : ∀ x, call.existing = some x → (s'.acquired x).isSome = true)
    (spent : ∀ x, call.takesOver = some x → s'.names x = true → s'.holds x = false) : s'.Kept := by
  refine ⟨named, taken, fresh, fun other x reads => ?_, fun other x takes named => ?_⟩
  · rw [acquires] at reads
    by_cases same : other = operation
    · rw [same, update_self] at reads
      exact met x reads
    · rw [update_of_ne same] at reads
      exact ages.acquired x (kept.met other x reads)
  rw [acquires] at takes
  by_cases same : other = operation
  · rw [same, update_self] at takes
    exact spent x takes named
  rw [update_of_ne same] at takes
  have before := kept.met other x (existing_of_takesOver takes)
  rcases ages.names x named with still | never
  · refine Bool.eq_false_iff.mpr fun holder => ?_
    exact Bool.eq_false_iff.mp (kept.spent other x takes still) (ages.holds x before holder)
  · rw [never] at before
    cases before

/-- A step that changes no call for the lock and takes no lock keeps the invariant where the holders are named. -/
theorem Kept.of_quiet (kept : s.Kept) (acquires : s'.acquires = s.acquires)
    (acquired : s'.acquired = s.acquired) (holds : ∀ x, s'.holds x = true → s.holds x = true)
    (names : ∀ x, s'.names x = true → s.names x = true)
    (named : ∀ x, s'.holds x = true → s'.names x = true) : s'.Kept := by
  refine ⟨named, fun x is => ?_, fun x is => ?_, fun other x is => ?_, fun other x is named => ?_⟩
  · rw [acquired]
    exact kept.taken x (names x is)
  · rw [acquires] at is
    rw [acquired]
    exact kept.fresh x is
  · rw [acquires] at is
    rw [acquired]
    exact kept.met other x is
  · rw [acquires] at is
    refine Bool.eq_false_iff.mpr fun holder => ?_
    exact Bool.eq_false_iff.mp (kept.spent other x is (names x named)) (holds x holder)

/-- A step that goes on with one call, and leaves the files and the clock, ages nothing. -/
theorem Ages.of_same (now : s'.now = s.now) (records : s'.records = s.records) (lock : s'.lock = s.lock)
    (acquired : s'.acquired = s.acquired) (released : s'.released = s.released) : s.Ages s' where
  acquired x is := by rwa [acquired]
  holds x _ holder := by
    rwa [holds_congr now records (congrFun acquired x) (congrFun released x)] at holder
  names x is := .inl (by rwa [LockState.names, lock] at is)

theorem holds_of_spent (spent : s.ended x = true ∨ s.leftWithoutRecord x = true) : s.holds x = false := by
  rcases spent with ended | left
  · simp [holds, ended]
  · simp [holds, left]

theorem leftWithoutRecord_of_timely {existingId : String} (at_ : s.acquires operation = .statLock existingId)
    (timely : s.timely (.acquireStep operation) = true) (orphaned : s.lockIsOrphaned = true)
    (named : s.names existingId = true) : s.leftWithoutRecord existingId = true := by
  simp only [LockState.timely, at_, orphaned, named, Bool.and_self, Bool.not_true, Bool.false_or,
    Bool.and_eq_true, isNone_iff_eq_none] at timely
  simpa only [leftWithoutRecord, timely.1, elim_none] using timely.2

theorem not_holds_of_removed (kept : s.Kept) {owner : String} (timely : (s.lock.isNone || s.names owner) = true)
    (other : x ≠ owner) : s.holds x = false := by
  refine Bool.eq_false_iff.mpr fun holder => ?_
  have named := kept.named x holder
  rw [Bool.or_eq_true, isNone_iff_eq_none] at timely
  rcases timely with gone | names
  · simp [names, gone] at named
  · exact other (eq_of_names named names)

theorem Kept.acquireNext (kept : s.Kept) (timely : s.timely (.acquireStep operation) = true)
    (step : s.acquireNext operation = some s') : s'.Kept := by
  rcases acquireNext_cases step with ⟨call, acquires, now, records, released, quiet | link | removal⟩
  · -- the lock stays as it is
    rcases quiet with ⟨lock, acquired, asks, existing, takesOver⟩
    have ages := Ages.of_same now records lock acquired released
    have sameHolds : ∀ x, s'.holds x = s.holds x := fun x =>
      holds_congr now records (congrFun acquired x) (congrFun released x)
    have sameNames : ∀ x, s'.names x = s.names x := fun x => by simp only [names, lock]
    refine kept.of_call ages acquires ?_ ?_ ?_ ?_ ?_
    · intro x holder
      rw [sameHolds] at holder
      rw [sameNames]
      exact kept.named x holder
    · intro x is
      rw [sameNames] at is
      rw [acquired]
      exact kept.taken x is
    · intro x is
      rw [acquired]
      rw [acquires] at is
      by_cases same : x = operation
      · rw [same, update_self] at is
        rw [same]
        exact kept.fresh operation (asks is)
      · rw [update_of_ne same] at is
        exact kept.fresh x is
    · intro x reads
      rw [acquired]
      rcases existing x reads with before | named
      · exact kept.met operation x before
      · exact kept.taken x named
    · intro x takes named
      rw [sameHolds]
      rw [sameNames] at named
      rcases takesOver x takes with before | ended | ⟨at_, orphaned⟩
      · exact kept.spent operation x before named
      · exact holds_of_spent (.inl ended)
      · exact holds_of_spent (.inr (leftWithoutRecord_of_timely at_ timely orphaned named))
  · -- the lock is free, so that nobody holds it
    rcases link with ⟨at_, free, rfl, acquired, mtimeMs, lock⟩
    have nobody : ∀ x, s.holds x = false := fun x => by
      refine Bool.eq_false_iff.mpr fun holder => ?_
      have named := kept.named x holder
      simp [names, free] at named
    have notYet : s.acquired operation = none := kept.fresh operation (by rw [at_]; rfl)
    have namesIt : ∀ x, s'.names x = true → x = operation := fun x is => by
      simp only [names, lock, any_some, decide_eq_true_eq] at is
      exact is.symm
    have elsewhere : ∀ x, x ≠ operation → s'.holds x = s.holds x := fun x other =>
      holds_congr now records (by rw [acquired, update_of_ne other]) (congrFun released x)
    have ages : s.Ages s' := by
      refine ⟨fun x is => ?_, fun x is holder => ?_, fun x is => ?_⟩
      · rw [acquired]
        by_cases same : x = operation
        · rw [same, update_self]
          rfl
        · rwa [update_of_ne same]
      · have other : x ≠ operation := fun same => by simp [same, notYet] at is
        rwa [elsewhere x other] at holder
      · rw [namesIt x is]
        exact .inr notYet
    refine kept.of_call ages acquires ?_ ?_ ?_ ?_ ?_
    · intro x holder
      by_cases same : x = operation
      · simp [names, lock, same]
      · rw [elsewhere x same] at holder
        exact absurd holder (Bool.eq_false_iff.mp (nobody x))
    · intro x is
      rw [acquired, namesIt x is, update_self]
      rfl
    · intro x is
      rw [acquires] at is
      by_cases same : x = operation
      · rw [same, update_self] at is
        cases is
      · rw [update_of_ne same] at is
        rw [acquired, update_of_ne same]
        exact kept.fresh x is
    · intro x reads
      cases reads
    · intro x takes
      cases takes
  · -- the lock is removed from an operation that holds it no more
    rcases removal with ⟨owner, at_, lock, acquired, rfl⟩
    have sameHolds : ∀ x, s'.holds x = s.holds x := fun x =>
      holds_congr now records (congrFun acquired x) (congrFun released x)
    have unnamed : ∀ x, s'.names x = false := fun x => by simp [names, lock]
    have inTime : (s.lock.isNone || s.names owner) = true := by
      simpa only [LockState.timely, at_] using timely
    have nobody : ∀ x, s.holds x = false := fun x => by
      by_cases same : x = owner
      · refine Bool.eq_false_iff.mpr fun holder => ?_
        have named := kept.named x holder
        have noHolder := kept.spent operation x (by rw [at_, same]; rfl) named
        exact Bool.eq_false_iff.mp noHolder holder
      · exact not_holds_of_removed kept inTime same
    have ages : s.Ages s' := by
      refine ⟨fun x is => by rwa [acquired], fun x _ holder => by rwa [sameHolds] at holder, fun x is => ?_⟩
      exact absurd is (Bool.eq_false_iff.mp (unnamed x))
    refine kept.of_call ages acquires ?_ ?_ ?_ ?_ ?_
    · intro x holder
      rw [sameHolds] at holder
      exact absurd holder (Bool.eq_false_iff.mp (nobody x))
    · intro x is
      exact absurd is (Bool.eq_false_iff.mp (unnamed x))
    · intro x is
      rw [acquired]
      rw [acquires] at is
      by_cases same : x = operation
      · rw [same]
        exact kept.fresh operation (by rw [at_]; rfl)
      · rw [update_of_ne same] at is
        exact kept.fresh x is
    · intro x reads
      cases reads
    · intro x takes
      cases takes

theorem Kept.releaseNext {call : Nat} (kept : s.Kept) (timely : s.timely (.releaseStep call) = true)
    (step : s.releaseNext call = some s') : s'.Kept := by
  unfold LockState.releaseNext at step
  cases at_ : s.releases call with
  | none =>
    simp only [at_] at step
    cases step
  | some stage =>
    cases stage with
    | readForRelease owner =>
      simp only [at_] at step
      split at step <;> obtain rfl := Option.some.inj step
      · exact kept.of_quiet rfl rfl (fun _ is => is) (fun _ is => is) kept.named
      · exact kept.of_quiet rfl rfl (fun _ is => is) (fun _ is => is) kept.named
    | release owner =>
      simp only [at_] at step
      have inTime : (s.lock.isNone || s.names owner) = true := by
        simpa only [LockState.timely, at_] using timely
      have fields : s'.lock = none ∧ s'.acquires = s.acquires ∧ s'.now = s.now ∧ s'.records = s.records ∧
          s'.acquired = s.acquired ∧ s'.released = Function.update s.released owner true := by
        cases step
        exact ⟨rfl, rfl, rfl, rfl, rfl, rfl⟩
      rcases fields with ⟨lock, acquires, now, records, acquired, released⟩
      have shrinks : ∀ x, s'.holds x = true → x ≠ owner ∧ s.holds x = true := by
        intro x holder
        have other : x ≠ owner := fun same => by
          simp [holds, released, same] at holder
        refine ⟨other, ?_⟩
        have still : s'.released x = s.released x := by rw [released, update_of_ne other]
        rwa [holds_congr now records (congrFun acquired x) still] at holder
      refine kept.of_quiet acquires acquired (fun x holder => (shrinks x holder).2) ?_ ?_
      · intro x is
        exact absurd is (by simp [names, lock])
      · intro x holder
        have left := shrinks x holder
        exact absurd left.2 (Bool.eq_false_iff.mp (not_holds_of_removed kept inTime left.1))

/-- A call that ends, or that begins, without touching a file. -/
theorem Kept.goes (kept : s.Kept) (asks : call.asks = true → (s.acquires operation).asks = true)
    (existing : call.existing = none) : (s.goes operation call).Kept := by
  refine kept.of_call (Ages.of_same rfl rfl rfl rfl rfl) rfl kept.named kept.taken ?_ ?_ ?_
  · intro x is
    by_cases same : x = operation
    · subst same
      exact kept.fresh x (asks (by simpa [LockState.goes] using is))
    · exact kept.fresh x (by simpa [LockState.goes, update_of_ne same] using is)
  · intro x reads
    exact absurd (existing.symm.trans reads).symm (some_ne_none _)
  · intro x takes
    exact absurd (existing.symm.trans (existing_of_takesOver takes)).symm (some_ne_none _)

theorem Kept.step {event : LockEvent} (kept : s.Kept) (timely : s.timely event = true)
    (step : s.next event = some s') : s'.Kept := by
  cases event with
  | tick ms =>
    cases step
    have shrinks : ∀ x, holds { s with now := s.now + ms } x = true → s.holds x = true := by
      intro x holder
      by_contra none_
      cases left : s.leftWithoutRecord x with
      | true =>
        have later := leftWithoutRecord_tick ms left
        simp [holds, later] at holder
      | false =>
        simp only [holds, ended, Bool.and_eq_true] at holder
        simp only [holds, ended, left, holder.1, Bool.not_false, Bool.and_self, not_true_eq_false] at none_
    exact kept.of_quiet rfl rfl shrinks (fun _ is => is) fun x holder => kept.named x (shrinks x holder)
  | acquire other =>
    simp only [next] at step
    split at step
    · rename_i at_
      cases step
      exact kept.goes (fun _ => by rw [at_]; rfl) rfl
    · cases step
  | acquireStep other => exact kept.acquireNext timely step
  | acquireFails other =>
    simp only [next, acquireFailsNext] at step
    split at step
    · cases step
    · cases step
    · cases step
    · rename_i at_
      cases step
      exact kept.goes (fun _ => by rw [at_]; rfl) rfl
    · cases step
      exact kept.goes (fun is => absurd is Bool.false_ne_true) rfl
    · cases step
      exact kept.goes (fun is => absurd is Bool.false_ne_true) rfl
  | acquireDies other =>
    simp only [next] at step
    split at step
    · cases step
    · cases step
    · cases step
      exact kept.goes (fun is => absurd is Bool.false_ne_true) rfl
  | release call owner =>
    simp only [next] at step
    split at step
    · cases step
      exact kept.of_quiet rfl rfl (fun _ is => is) (fun _ is => is) kept.named
    · cases step
  | releaseStep call => exact kept.releaseNext timely step
  | releaseFails call =>
    simp only [next] at step
    split at step
    · cases step
    · cases step
      exact kept.of_quiet rfl rfl (fun _ is => is) (fun _ is => is) kept.named
  | releaseDies call =>
    simp only [next] at step
    split at step
    · cases step
    · cases step
      exact kept.of_quiet rfl rfl (fun _ is => is) (fun _ is => is) kept.named
  | record other status =>
    have keeps := recordNext_keeps step
    have sameNames : ∀ x, s'.names x = s.names x := fun x => by simp only [names, keeps.1]
    refine kept.of_quiet keeps.2.2 keeps.2.1 (fun x holder => holds_record step holder) ?_ ?_
    · intro x is
      rwa [sameNames] at is
    · intro x holder
      rw [sameNames]
      exact kept.named x (holds_record step holder)

theorem Kept.of_reachable
    (reached : (lockSystem.restrict fun s event => s.timely event = true).Reachable s) : s.Kept := by
  refine System.Reachable.invariant ?_ ?_ reached
  · rintro s rfl
    exact kept_init
  · intro s event s' kept taken
    exact kept.step taken.1 taken.2

end LockState

/-! ## One holder -/

/-- In a run whose removals and stats come in time, the lock has one holder. -/
theorem update_lock_has_one_holder (s : LockState)
    (reached : (lockSystem.restrict fun s event => s.timely event = true).Reachable s) : s.OneHolder :=
  (LockState.Kept.of_reachable reached).oneHolder

/-- One operation takes the lock, is recorded and ends without releasing it. -/
def endedHolder : List LockEvent :=
  [.acquire "a", .acquireStep "a", .acquireStep "a", .record "a" .running, .record "a" .ended]

/-- A second operation takes the lock over from one that has ended. -/
def takenOver : List LockEvent :=
  endedHolder ++ .acquire "b" :: List.replicate 9 (.acquireStep "b")

theorem update_lock_has_one_holder_takenOver :
    (runAll (fun s event => if s.timely event = true then s.next event else none) ({} : LockState)
      takenOver).any (fun s => s.holds "b" && !s.holds "a") = true ∧
    ∀ s, runAll (fun s event => if s.timely event = true then s.next event else none) ({} : LockState)
      takenOver = some s → s.OneHolder := by
  refine ⟨by decide, fun s ran => ?_⟩
  exact update_lock_has_one_holder s ⟨_, _, rfl, System.run_of_guardedRunAll ran⟩

/-- Two operations have read that the one they take over from has ended; one of them removes the lock that the other has
meanwhile taken. -/
def takenOverTwice : List LockEvent :=
  endedHolder ++ .acquire "b" :: .acquire "c" :: List.replicate 5 (.acquireStep "c") ++
    List.replicate 9 (.acquireStep "b") ++ List.replicate 4 (.acquireStep "c")

theorem takenOverTwice_both : (runAll LockState.next ({} : LockState) takenOverTwice).any (fun s =>
    s.holds "b" && s.holds "c") = true := by
  decide

theorem update_lock_two_holders : ¬ ∀ s, lockSystem.Reachable s → s.OneHolder := by
  intro all
  have both := takenOverTwice_both
  rw [Option.any_eq_true] at both
  rcases both with ⟨s, ran, both⟩
  rw [Bool.and_eq_true] at both
  have same := (all s ⟨_, _, rfl, System.run_of_runAll ran⟩).one "b" "c" both.1 both.2
  exact absurd same (by decide)

end Kiln.Relay
