import Mathlib
import Kiln.Lib.OrderedMap

/-!
# Lane locks and the table of held ones

`packages/operations/src/locks.ts`: an operation names the resources it touches as keys, each
shared or exclusive. The `LockTable` keeps a flag and a count per key. `LockTable.Sums` says
what they stand for, the lists of locks that were taken and not released, and `take`,
`release` and `conflicts` are shown to be right about those lists.
-/

namespace Kiln.Operations
open Kiln.Lib List

/-- `LaneMode` (`locks.ts:11`). -/
inductive LaneMode where
  | exclusive
  | shared
  deriving DecidableEq, Repr

/-- `LaneLock` (`locks.ts:13-16`). -/
structure LaneLock (κ : Type) where
  key : κ
  mode : LaneMode
  deriving DecidableEq, Repr

/-- `exclusive` (`locks.ts:18-21`). -/
def exclusive {κ : Type} (key : κ) : LaneLock κ := ⟨key, .exclusive⟩

/-- `shared` (`locks.ts:23`). -/
def shared {κ : Type} (key : κ) : LaneLock κ := ⟨key, .shared⟩

section

variable {κ : Type}

@[simp] theorem exclusive_key (key : κ) : (exclusive key).key = key := rfl
@[simp] theorem exclusive_mode (key : κ) : (exclusive key).mode = .exclusive := rfl
@[simp] theorem shared_key (key : κ) : (shared key).key = key := rfl
@[simp] theorem shared_mode (key : κ) : (shared key).mode = .shared := rfl

variable {κ : Type} [LinearOrder κ]

/-- One turn of the loop of `normalizeLocks` over its map of modes. -/
def noteMode (modes : OrderedMap κ LaneMode) (lock : LaneLock κ) : OrderedMap κ LaneMode :=
  if modes.get lock.key ≠ some .exclusive then modes.set lock.key lock.mode else modes

/-- `normalizeLocks` (`locks.ts:29-39`): one lock per key, exclusive when any asked for it, in key order. -/
def normalizeLocks (locks : List (LaneLock κ)) : List (LaneLock κ) :=
  let modes := locks.foldl noteMode .empty
  (modes.entries.insertionSort (fun left right => left.1 ≤ right.1)).map fun entry => ⟨entry.1, entry.2⟩

/-- `Held` (`locks.ts:41-44`). The count is an integer: `release` subtracts without a check. -/
structure Held where
  exclusive : Bool
  shared : Int
  deriving DecidableEq, Repr

/-- `LockTable` (`locks.ts:47-75`): the locks granted operations hold, by key. -/
structure LockTable (κ : Type) where
  held : OrderedMap κ Held

namespace LockTable

def empty : LockTable κ := ⟨.empty⟩

/-- `LockTable.conflicts` (`locks.ts:51-55`). -/
def conflicts (table : LockTable κ) (lock : LaneLock κ) : Bool :=
  match table.held.get lock.key with
  | none => false
  | some held => held.exclusive || (lock.mode = .exclusive && 0 < held.shared)

/-- The entry `take` leaves under a key. -/
def takeEntry (held : Option Held) (mode : LaneMode) : Held :=
  let held := held.getD ⟨false, 0⟩
  match mode with
  | .exclusive => { held with exclusive := true }
  | .shared => { held with shared := held.shared + 1 }

/-- The entry `release` leaves under a key, if any. -/
def releaseEntry (held : Held) (mode : LaneMode) : Option Held :=
  let held : Held := match mode with
    | .exclusive => { held with exclusive := false }
    | .shared => { held with shared := held.shared - 1 }
  if !held.exclusive && held.shared = 0 then none else some held

/-- One turn of the loop of `take`. -/
def takeLock (table : LockTable κ) (lock : LaneLock κ) : LockTable κ :=
  ⟨table.held.set lock.key (takeEntry (table.held.get lock.key) lock.mode)⟩

/-- `LockTable.take` (`locks.ts:57-64`). -/
def take (table : LockTable κ) (locks : List (LaneLock κ)) : LockTable κ :=
  locks.foldl takeLock table

/-- One turn of the loop of `release`. -/
def releaseLock (table : LockTable κ) (lock : LaneLock κ) : LockTable κ :=
  match table.held.get lock.key with
  | none => table
  | some held =>
      match releaseEntry held lock.mode with
      | none => ⟨table.held.delete lock.key⟩
      | some held => ⟨table.held.set lock.key held⟩

/-- `LockTable.release` (`locks.ts:66-74`). -/
def release (table : LockTable κ) (locks : List (LaneLock κ)) : LockTable κ :=
  locks.foldl releaseLock table

end LockTable

/-! ## Normalized locks -/

/-- Each key is named by one lock at most. -/
def OneLockPerKey (locks : List (LaneLock κ)) : Prop :=
  (locks.map LaneLock.key).Nodup

omit [LinearOrder κ] in
theorem OneLockPerKey.mode_unique {locks : List (LaneLock κ)} (h : OneLockPerKey locks)
    {a b : LaneLock κ} (ha : a ∈ locks) (hb : b ∈ locks) (key : a.key = b.key) : a = b :=
  inj_on_of_nodup_map h ha hb key

theorem get_foldl_noteMode (locks : List (LaneLock κ)) (modes : OrderedMap κ LaneMode) (key : κ) :
    (locks.foldl noteMode modes).get key =
      if modes.get key = some .exclusive ∨ exclusive key ∈ locks then some .exclusive
      else if shared key ∈ locks then some .shared
      else modes.get key := by
  induction locks generalizing modes with
  | nil => simp +contextual
  | cons lock rest ih =>
    obtain ⟨k, mode⟩ := lock
    rw [foldl_cons, ih]
    by_cases here : k = key
    · subst here
      by_cases strong : modes.get k = some .exclusive
      · simp [noteMode, strong]
      · cases mode <;> simp [noteMode, strong, exclusive, shared]
    · have same : (noteMode modes ⟨k, mode⟩).get key = modes.get key := by
        unfold noteMode; split <;> simp [here]
      simp [same, exclusive, shared, Ne.symm here]

theorem normalizeLocks_oneLockPerKey (locks : List (LaneLock κ)) :
    OneLockPerKey (normalizeLocks locks) := by
  have perm := perm_insertionSort (fun left right : κ × LaneMode => left.1 ≤ right.1)
    (locks.foldl noteMode .empty).entries
  unfold OneLockPerKey normalizeLocks
  rw [map_map]
  exact ((perm.map Prod.fst).nodup_iff).mpr (locks.foldl noteMode .empty).nodup

theorem mem_normalizeLocks (locks : List (LaneLock κ)) (lock : LaneLock κ) :
    lock ∈ normalizeLocks locks ↔ (locks.foldl noteMode .empty).get lock.key = some lock.mode := by
  obtain ⟨key, mode⟩ := lock
  have perm := perm_insertionSort (fun left right : κ × LaneMode => left.1 ≤ right.1)
    (locks.foldl noteMode .empty).entries
  rw [OrderedMap.get_eq_some, ← perm.mem_iff]
  simp [normalizeLocks]

@[simp] theorem exclusive_mem_normalizeLocks (locks : List (LaneLock κ)) (key : κ) :
    exclusive key ∈ normalizeLocks locks ↔ exclusive key ∈ locks := by
  rw [mem_normalizeLocks]
  rw [get_foldl_noteMode]
  by_cases strong : exclusive key ∈ locks
  · simp [strong]
  · by_cases weak : shared key ∈ locks <;> simp [strong, weak]

@[simp] theorem shared_mem_normalizeLocks (locks : List (LaneLock κ)) (key : κ) :
    shared key ∈ normalizeLocks locks ↔ shared key ∈ locks ∧ exclusive key ∉ locks := by
  rw [mem_normalizeLocks]
  rw [get_foldl_noteMode]
  by_cases strong : exclusive key ∈ locks
  · simp [strong]
  · by_cases weak : shared key ∈ locks <;> simp [strong, weak]

/-! ## Conflicting locks -/

/-- Two locks that can't be held by two operations at once. -/
def Clash (a b : LaneLock κ) : Prop :=
  a.key = b.key ∧ (a.mode = .exclusive ∨ b.mode = .exclusive)

instance (a b : LaneLock κ) : Decidable (Clash a b) :=
  inferInstanceAs (Decidable (_ ∧ _))

/-- Two lists of locks of which one of each clash. -/
def Conflict (l m : List (LaneLock κ)) : Prop :=
  ∃ a ∈ l, ∃ b ∈ m, Clash a b

instance (l m : List (LaneLock κ)) : Decidable (Conflict l m) :=
  inferInstanceAs (Decidable (∃ a ∈ l, ∃ b ∈ m, Clash a b))

omit [LinearOrder κ] in
theorem Clash.symm {a b : LaneLock κ} (h : Clash a b) : Clash b a :=
  ⟨h.1.symm, h.2.symm⟩

omit [LinearOrder κ] in
theorem Conflict.symm {l m : List (LaneLock κ)} (h : Conflict l m) : Conflict m l := by
  obtain ⟨a, ha, b, hb, clash⟩ := h
  exact ⟨b, hb, a, ha, clash.symm⟩

/-! ## What a table stands for -/

/-- How many of the holders hold a key exclusively. -/
def exclusiveCount (holders : List (List (LaneLock κ))) (key : κ) : Nat :=
  holders.countP (fun locks => exclusive key ∈ locks)

/-- How many of the holders hold a key shared. -/
def sharedCount (holders : List (List (LaneLock κ))) (key : κ) : Nat :=
  holders.countP (fun locks => shared key ∈ locks)

/-- The entry of a key some hold exclusively and some shared. -/
def entry (exclusive shared : Nat) : Option Held :=
  if exclusive = 0 ∧ shared = 0 then none else some ⟨0 < exclusive, shared⟩

/-- The entry of a key in the table of the holders' locks. -/
def tally (holders : List (List (LaneLock κ))) (key : κ) : Option Held :=
  entry (exclusiveCount holders key) (sharedCount holders key)

namespace LockTable

/-- The table is exactly the sum of the holders' locks. -/
def Sums (table : LockTable κ) (holders : List (List (LaneLock κ))) : Prop :=
  ∀ key, table.held.get key = tally holders key

theorem sums_empty : (empty : LockTable κ).Sums [] := by
  intro key; rfl

theorem Sums.perm {table : LockTable κ} {l m : List (List (LaneLock κ))} (h : table.Sums l)
    (perm : l.Perm m) : table.Sums m := by
  intro key
  rw [h key, tally, tally, exclusiveCount, sharedCount, perm.countP_eq, perm.countP_eq]
  rfl

theorem get_takeLock (table : LockTable κ) (lock : LaneLock κ) (key : κ) : (table.takeLock lock).held.get key =
      if lock.key = key then some (takeEntry (table.held.get key) lock.mode)
      else table.held.get key := by
  by_cases here : lock.key = key
  · subst here; simp [takeLock]
  · simp [takeLock, here]

variable {locks : List (LaneLock κ)}

theorem get_take_of_not_mem {key : κ} (h : key ∉ locks.map LaneLock.key) (table : LockTable κ) :
    (table.take locks).held.get key = table.held.get key := by
  induction locks generalizing table with
  | nil => rfl
  | cons lock rest ih =>
    rw [map_cons, mem_cons, not_or] at h
    rw [take, foldl_cons, ← take, ih h.2, get_takeLock, if_neg (Ne.symm h.1)]

theorem get_take_of_mem (once : OneLockPerKey locks) {lock : LaneLock κ} (h : lock ∈ locks) (table : LockTable κ) :
    (table.take locks).held.get lock.key = some (takeEntry (table.held.get lock.key) lock.mode) := by
  induction locks generalizing table with
  | nil => simp at h
  | cons first rest ih =>
    rw [OneLockPerKey, map_cons, nodup_cons] at once
    rw [take, foldl_cons, ← take]
    rcases mem_cons.mp h with rfl | member
    · rw [get_take_of_not_mem once.1, get_takeLock, if_pos rfl]
    · have other : first.key ≠ lock.key := by
        intro same
        exact once.1 (same ▸ mem_map_of_mem member)
      rw [ih once.2 member, get_takeLock, if_neg other]

theorem get_releaseLock (table : LockTable κ) (lock : LaneLock κ) (key : κ) : (table.releaseLock lock).held.get key =
      if lock.key = key then (table.held.get key).bind (releaseEntry · lock.mode)
      else table.held.get key := by
  unfold releaseLock
  by_cases here : lock.key = key
  · subst here
    cases found : table.held.get lock.key with
    | none => simp [found]
    | some held => cases left : releaseEntry held lock.mode <;> simp [left]
  · rw [if_neg here]
    cases table.held.get lock.key with
    | none => rfl
    | some held => cases left : releaseEntry held lock.mode <;> simp [left, here]

theorem get_release_of_not_mem {key : κ} (h : key ∉ locks.map LaneLock.key) (table : LockTable κ) :
    (table.release locks).held.get key = table.held.get key := by
  induction locks generalizing table with
  | nil => rfl
  | cons lock rest ih =>
    rw [map_cons, mem_cons, not_or] at h
    rw [release, foldl_cons, ← release, ih h.2, get_releaseLock, if_neg (Ne.symm h.1)]

theorem get_release_of_mem (once : OneLockPerKey locks) {lock : LaneLock κ} (h : lock ∈ locks) (table : LockTable κ) :
    (table.release locks).held.get lock.key = (table.held.get lock.key).bind (releaseEntry · lock.mode) := by
  induction locks generalizing table with
  | nil => simp at h
  | cons first rest ih =>
    rw [OneLockPerKey, map_cons, nodup_cons] at once
    rw [release, foldl_cons, ← release]
    rcases mem_cons.mp h with rfl | member
    · rw [get_release_of_not_mem once.1, get_releaseLock, if_pos rfl]
    · have other : first.key ≠ lock.key := by
        intro same
        exact once.1 (same ▸ mem_map_of_mem member)
      rw [ih once.2 member, get_releaseLock, if_neg other]

end LockTable

theorem exclusiveCount_cons (locks : List (LaneLock κ)) (holders : List (List (LaneLock κ)))
    (key : κ) : exclusiveCount (locks :: holders) key =
      exclusiveCount holders key + if exclusive key ∈ locks then 1 else 0 := by
  simp [exclusiveCount, countP_cons]

theorem sharedCount_cons (locks : List (LaneLock κ)) (holders : List (List (LaneLock κ)))
    (key : κ) : sharedCount (locks :: holders) key = sharedCount holders key + if shared key ∈ locks then 1 else 0 := by
  simp [sharedCount, countP_cons]

/-- Holders that don't conflict don't share what one of them holds exclusively. -/
theorem exclusiveCount_le_one {holders : List (List (LaneLock κ))}
    (apart : holders.Pairwise fun l m => ¬ Conflict l m) (key : κ) :
    exclusiveCount holders key ≤ 1 := by
  induction holders with
  | nil => exact Nat.zero_le 1
  | cons locks holders ih =>
    rw [pairwise_cons] at apart
    rw [exclusiveCount_cons]
    split
    · rename_i strong
      have none : exclusiveCount holders key = 0 := by
        rw [exclusiveCount, countP_eq_zero]
        intro other among
        rw [decide_eq_true_eq]
        exact fun strong' => apart.1 other among ⟨_, strong, _, strong', rfl, Or.inl rfl⟩
      rw [none]
    · exact ih apart.2

/-- How a list of locks names a key that is among its keys: with one lock, so not in both modes. -/
theorem OneLockPerKey.cases {locks : List (LaneLock κ)} (once : OneLockPerKey locks) (key : κ) :
    (exclusive key ∈ locks ∧ shared key ∉ locks) ∨ (shared key ∈ locks ∧ exclusive key ∉ locks) ∨
      (key ∉ locks.map LaneLock.key ∧ exclusive key ∉ locks ∧ shared key ∉ locks) := by
  by_cases strong : exclusive key ∈ locks
  · refine Or.inl ⟨strong, fun weak => ?_⟩
    have := once.mode_unique strong weak rfl
    simp [exclusive, shared] at this
  by_cases weak : shared key ∈ locks
  · exact Or.inr (Or.inl ⟨weak, strong⟩)
  · refine Or.inr (Or.inr ⟨?_, strong, weak⟩)
    rw [mem_map]
    rintro ⟨⟨k, mode⟩, member, rfl⟩
    cases mode
    · exact strong member
    · exact weak member

namespace LockTable

theorem takeEntry_exclusive (e n : Nat) : some (takeEntry (entry e n) .exclusive) = entry (e + 1) n := by
  unfold entry takeEntry
  split <;> simp_all

theorem takeEntry_shared (e n : Nat) : some (takeEntry (entry e n) .shared) = entry e (n + 1) := by
  unfold entry takeEntry
  split <;> simp_all

theorem releaseEntry_exclusive (n : Nat) : (entry 1 n).bind (releaseEntry · .exclusive) = entry 0 n := by
  simp [entry, releaseEntry]

theorem releaseEntry_shared (e n : Nat) : (entry e (n + 1)).bind (releaseEntry · .shared) = entry e n := by
  simp [entry, releaseEntry]

variable {holders : List (List (LaneLock κ))} {table : LockTable κ}

/-- Taking locks adds them as one more holder's, whether or not they clash with what is held. -/
theorem Sums.take (h : table.Sums holders) {locks : List (LaneLock κ)} (once : OneLockPerKey locks) :
    (table.take locks).Sums (locks :: holders) := by
  intro key
  have before := h key
  rw [tally] at before ⊢
  rw [exclusiveCount_cons, sharedCount_cons]
  rcases once.cases key with ⟨strong, weak⟩ | ⟨weak, strong⟩ | ⟨absent, strong, weak⟩
  · rw [if_pos strong, if_neg weak, Nat.add_zero (sharedCount holders key), ← takeEntry_exclusive, ← before]
    exact get_take_of_mem once strong table
  · rw [if_pos weak, if_neg strong, Nat.add_zero (exclusiveCount holders key), ← takeEntry_shared, ← before]
    exact get_take_of_mem once weak table
  · rw [if_neg strong, if_neg weak, get_take_of_not_mem absent]
    exact before

/-- Releasing a holder's locks takes them out of the sum, where nobody else holds exclusively what it held exclusively:
the table keeps a flag, not a count. -/
theorem Sums.release {locks : List (LaneLock κ)} (h : table.Sums (locks :: holders)) (once : OneLockPerKey locks)
    (alone : ∀ key, exclusive key ∈ locks → exclusiveCount holders key = 0) :
    (table.release locks).Sums holders := by
  intro key
  have before := h key
  rw [tally] at before ⊢
  rw [exclusiveCount_cons, sharedCount_cons] at before
  rcases once.cases key with ⟨strong, weak⟩ | ⟨weak, strong⟩ | ⟨absent, strong, weak⟩
  · rw [if_pos strong, if_neg weak, alone key strong, Nat.zero_add, Nat.add_zero (sharedCount holders key)] at before
    rw [alone key strong, ← releaseEntry_exclusive, ← before]
    exact get_release_of_mem once strong table
  · rw [if_pos weak, if_neg strong, Nat.add_zero (exclusiveCount holders key)] at before
    rw [← releaseEntry_shared, ← before]
    exact get_release_of_mem once weak table
  · rw [if_neg strong, if_neg weak] at before
    rw [get_release_of_not_mem absent]
    exact before

theorem Sums.conflicts_iff (h : table.Sums holders) (lock : LaneLock κ) :
    table.conflicts lock = true ↔ ∃ locks ∈ holders, ∃ held ∈ locks, Clash held lock := by
  have strongest : 0 < exclusiveCount holders lock.key ↔ ∃ locks ∈ holders, exclusive lock.key ∈ locks := by
    simp [exclusiveCount, countP_pos_iff]
  have weakest : 0 < sharedCount holders lock.key ↔ ∃ locks ∈ holders, shared lock.key ∈ locks := by
    simp [sharedCount, countP_pos_iff]
  have split : (∃ locks ∈ holders, ∃ held ∈ locks, Clash held lock) ↔ (∃ locks ∈ holders, exclusive lock.key ∈ locks) ∨
        lock.mode = .exclusive ∧ ∃ locks ∈ holders, shared lock.key ∈ locks := by
    constructor
    · rintro ⟨locks, holder, ⟨key, mode⟩, member, same, strong⟩
      obtain rfl : key = lock.key := same
      cases mode with
      | exclusive => exact Or.inl ⟨locks, holder, member⟩
      | shared => exact Or.inr ⟨by simpa using strong, locks, holder, member⟩
    · rintro (⟨locks, holder, member⟩ | ⟨strong, locks, holder, member⟩)
      · exact ⟨locks, holder, _, member, rfl, Or.inl rfl⟩
      · exact ⟨locks, holder, _, member, rfl, Or.inr strong⟩
  rw [split, ← strongest, ← weakest]
  unfold conflicts
  rw [h lock.key, tally, entry]
  by_cases none : exclusiveCount holders lock.key = 0 ∧ sharedCount holders lock.key = 0
  · simp [none]
  · rw [if_neg none]
    simp

theorem Sums.free_iff (h : table.Sums holders) (locks : List (LaneLock κ)) :
    (∀ lock ∈ locks, table.conflicts lock = false) ↔ ∀ other ∈ holders, ¬ Conflict other locks := by
  constructor
  · rintro free other holder ⟨a, ha, b, hb, clash⟩
    have := (h.conflicts_iff b).mpr ⟨other, holder, a, ha, clash⟩
    rw [free b hb] at this
    cases this
  · intro apart lock member
    by_contra hit
    rw [Bool.not_eq_false, h.conflicts_iff] at hit
    obtain ⟨other, holder, held, hheld, clash⟩ := hit
    exact apart other holder ⟨held, hheld, lock, member, clash⟩

end LockTable

end

end Kiln.Operations
