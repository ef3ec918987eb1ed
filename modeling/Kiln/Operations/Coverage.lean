import Mathlib
import Kiln.Operations.Locks

/-!
# Locks that are covered by what is held

The `uncovered` of both homes of the lanes, `apps/relay/src/operations/operation.ts` and
`apps/web/src/operations/lanes.ts`, which differ in the separator between a whole and its part.
What covers nested work's locks keeps every other operation off them only where that operation
takes the whole of each part it takes.
-/

namespace Kiln.Operations
open Kiln.Lib

/-- `key.slice(0, at)` for the `at` of `key.indexOf(separator)`, where there is one. -/
def before (separator : Char) (key : String) : Option String :=
  if separator ∈ key.toList then
    some (String.ofList (key.toList.takeWhile (· ≠ separator)))
  else none

theorem before_none_of_before {separator : Char} {key whole : String}
    (isWhole : before separator key = some whole) : before separator whole = none := by
  unfold before at isWhole
  split at isWhole
  · cases isWhole
    have absent : separator ∉ (key.toList.takeWhile (· ≠ separator)) := by
      intro member
      simpa using List.mem_takeWhile_imp member
    rw [before, String.toList_ofList, if_neg absent]
  · cases isWhole

section

variable {κ : Type} [LinearOrder κ]

/-- `new Map(held.map((lock) => [lock.key, lock.mode]))`. -/
def modesOf (held : List (LaneLock κ)) : OrderedMap κ LaneMode :=
  held.foldl (fun modes lock => modes.set lock.key lock.mode) .empty

/-- Whether the modes of what is held cover a lock: held as strongly, or a part of a whole held exclusively. -/
def covers (wholeOf : κ → Option κ) (modes : OrderedMap κ LaneMode) (lock : LaneLock κ) : Bool :=
  if modes.get lock.key = some .exclusive ∨ (modes.get lock.key = some .shared ∧ lock.mode = .shared) then true
  else
    match wholeOf lock.key with
    | none => false
    | some whole => modes.get whole = some .exclusive

/-- `uncovered` (`operation.ts:205-217`, `lanes.ts:180-192`), with the whole of a key. -/
def uncoveredBy (wholeOf : κ → Option κ) (wanted held : List (LaneLock κ)) : List (LaneLock κ) :=
  let modes := modesOf held
  wanted.filter fun lock => !covers wholeOf modes lock

/-- Takes the whole of each part it takes. -/
def TakesWholes (wholeOf : κ → Option κ) (locks : List (LaneLock κ)) : Prop :=
  ∀ lock ∈ locks, ∀ whole, wholeOf lock.key = some whole → whole ∈ locks.map LaneLock.key

/-- Can be granted beside what is held: the table of the held locks conflicts with none. -/
def Beside (locks held : List (LaneLock κ)) : Prop :=
  ∀ lock ∈ locks, (LockTable.empty.take held).conflicts lock = false

instance (locks held : List (LaneLock κ)) : Decidable (Beside locks held) :=
  inferInstanceAs (Decidable (∀ lock ∈ locks, _ = false))

instance (wholeOf : κ → Option κ) (locks : List (LaneLock κ)) :
    Decidable (TakesWholes wholeOf locks) :=
  decidable_of_iff (∀ lock ∈ locks, (wholeOf lock.key).all (· ∈ locks.map LaneLock.key) = true) <| by
    simp [TakesWholes, Option.all_eq_true]

/-! ## Beside -/

variable {held : List (LaneLock κ)}

theorem beside_iff {locks : List (LaneLock κ)} (once : OneLockPerKey held) :
    Beside locks held ↔ ¬ Conflict held locks := by
  have sums := LockTable.sums_empty.take once
  rw [Beside, sums.free_iff]
  simp

theorem beside_normalizeLocks (locks held : List (LaneLock κ)) :
    Beside locks (normalizeLocks held) ↔ ¬ Conflict (normalizeLocks held) locks :=
  beside_iff (normalizeLocks_oneLockPerKey held)

/-! ## What covers a lock -/

variable {key : κ}

theorem mem_of_get_modesOf {mode : LaneMode} (noted : (modesOf held).get key = some mode) : ⟨key, mode⟩ ∈ held := by
  have inLoop : ∀ modes : OrderedMap κ LaneMode,
      (held.foldl (fun modes lock => modes.set lock.key lock.mode) modes).get key = some mode →
        modes.get key = some mode ∨ ⟨key, mode⟩ ∈ held := by
    clear noted
    induction held with
    | nil => exact fun modes noted => Or.inl noted
    | cons lock held ih =>
      intro modes noted
      rcases ih _ noted with earlier | member
      · by_cases here : lock.key = key
        · subst here
          obtain rfl : lock.mode = mode := by simpa using earlier
          exact Or.inr (by simp)
        · exact Or.inl (by simpa [here] using earlier)
      · exact Or.inr (List.mem_cons_of_mem _ member)
  exact (inLoop .empty noted).resolve_left (by simp)

theorem get_modesOf_ne_none (member : key ∈ held.map LaneLock.key) : (modesOf held).get key ≠ none := by
  have inLoop : ∀ modes : OrderedMap κ LaneMode, modes.get key ≠ none ∨ key ∈ held.map LaneLock.key →
        (held.foldl (fun modes lock => modes.set lock.key lock.mode) modes).get key ≠ none := by
    clear member
    induction held with
    | nil => exact fun _ noted => noted.resolve_right (by simp)
    | cons lock held ih =>
      intro modes noted
      refine ih _ ?_
      by_cases here : lock.key = key
      · simp [here]
      · simpa [here, Ne.symm here] using noted
  exact inLoop .empty (Or.inr member)

variable {lock : LaneLock κ}

theorem get_modesOf (once : OneLockPerKey held) (member : lock ∈ held) :
    (modesOf held).get lock.key = some lock.mode := by
  obtain ⟨mode, noted⟩ := Option.ne_none_iff_exists'.mp
    (get_modesOf_ne_none (List.mem_map_of_mem (f := LaneLock.key) member))
  have same := once.mode_unique (mem_of_get_modesOf noted) member rfl
  rw [noted, ← same]

variable {wholeOf : κ → Option κ}

theorem covered_cases {wanted : List (LaneLock κ)} (covered : uncoveredBy wholeOf wanted held = [])
    (member : lock ∈ wanted) :
    exclusive lock.key ∈ held ∨ (shared lock.key ∈ held ∧ lock.mode = .shared) ∨
      ∃ whole, wholeOf lock.key = some whole ∧ exclusive whole ∈ held := by
  have yes : covers wholeOf (modesOf held) lock = true := by
    simpa using List.filter_eq_nil_iff.mp covered lock member
  unfold covers at yes
  split at yes
  · rename_i strong
    rcases strong with strong | ⟨weak, mode⟩
    · exact Or.inl (mem_of_get_modesOf strong)
    · exact Or.inr (Or.inl ⟨mem_of_get_modesOf weak, mode⟩)
  · cases found : wholeOf lock.key with
    | none => simp [found] at yes
    | some whole =>
      simp only [found, decide_eq_true_eq] at yes
      exact Or.inr (Or.inr ⟨whole, rfl, mem_of_get_modesOf yes⟩)

theorem covered_apart {wanted other : List (LaneLock κ)}
    (covered : uncoveredBy wholeOf wanted held = []) (apart : ¬ Conflict held other)
    (noPart : ∀ lock ∈ other, ∀ whole, wholeOf lock.key = some whole → exclusive whole ∉ held) :
    ¬ Conflict wanted other := by
  rintro ⟨wants, member, takes, among, same, strong⟩
  rcases covered_cases covered member with held' | ⟨held', mode⟩ | ⟨whole, isWhole, held'⟩
  · exact apart ⟨_, held', takes, among, same, Or.inl rfl⟩
  · refine apart ⟨_, held', takes, among, same, Or.inr (strong.resolve_left ?_)⟩
    simp [mode]
  · exact noPart takes among whole (same ▸ isWhole) held'

omit [LinearOrder κ] in
/-- Who takes a part's whole can't be granted beside who holds it exclusively. -/
theorem TakesWholes.noPart {other : List (LaneLock κ)} (wholes : TakesWholes wholeOf other)
    (apart : ¬ Conflict held other) (member : lock ∈ other) {whole : κ}
    (isWhole : wholeOf lock.key = some whole) :
    exclusive whole ∉ held := by
  intro strong
  obtain ⟨takes, among, key⟩ := List.mem_map.mp (wholes lock member whole isWhole)
  exact apart ⟨_, strong, takes, among, key.symm, Or.inl rfl⟩

theorem uncoveredBy_part (once : OneLockPerKey held) {whole : κ}
    (isWhole : wholeOf key = some whole) (strong : exclusive whole ∈ held) :
    uncoveredBy wholeOf [exclusive key] held = [] := by
  have noted : (modesOf held).get whole = some .exclusive := get_modesOf once strong
  simp [uncoveredBy, covers, isWhole, noted]

theorem mem_keys_normalizeLocks (locks : List (LaneLock κ)) (key : κ) :
    key ∈ (normalizeLocks locks).map LaneLock.key ↔ key ∈ locks.map LaneLock.key := by
  have split : ∀ list : List (LaneLock κ), key ∈ list.map LaneLock.key ↔ exclusive key ∈ list ∨ shared key ∈ list := by
    intro list
    rw [List.mem_map]
    constructor
    · rintro ⟨⟨_, mode⟩, member, rfl⟩
      cases mode with
      | exclusive => exact Or.inl member
      | shared => exact Or.inr member
    · rintro (member | member)
      · exact ⟨_, member, rfl⟩
      · exact ⟨_, member, rfl⟩
  rw [split, split, exclusive_mem_normalizeLocks, shared_mem_normalizeLocks]
  tauto

end

end Kiln.Operations
