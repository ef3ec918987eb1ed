import Kiln.Operations.Locks

/-!
# The lane rule

`packages/operations/src/grants.ts`: which waiting operations may start now, in admission
order, and what a waiting operation waits on.
-/

namespace Kiln.Operations
open List

variable {κ : Type} [LinearOrder κ] {W σ : Type}

/-- `GrantSelection` (`grants.ts:3-8`), with what `selectGrants` leaves behind: the table it took the granted locks in,
and the state its `admits` left. -/
structure GrantSelection (κ W σ : Type) where
  granted : List W
  dropped : List W
  held : LockTable κ
  env : σ

/-- `selectGrants` (`grants.ts:26-56`). Its `admit` is `admits` here, and may look at, and change, a state `env`. -/
def selectGrants (locksOf : W → Option (List (LaneLock κ))) (admits : σ → W → Bool × σ)
    (held blocked : LockTable κ) (env : σ) : List W → GrantSelection κ W σ
  | [] => ⟨[], [], held, env⟩
  | waiter :: rest =>
      match locksOf waiter with
      | none => ⟨[], [], held, env⟩
      | some locks =>
          if locks.all (fun lock => !held.conflicts lock && !blocked.conflicts lock) then
            let answer := admits env waiter
            if answer.1 then
              let later := selectGrants locksOf admits (held.take locks) blocked answer.2 rest
              { later with granted := waiter :: later.granted }
            else
              let later := selectGrants locksOf admits held blocked answer.2 rest
              { later with dropped := waiter :: later.dropped }
          else
            selectGrants locksOf admits held (blocked.take locks) env rest

/-- `LaneOccupant` (`grants.ts:58-61`). -/
structure LaneOccupant (Id κ : Type) where
  id : Id
  locks : List (LaneLock κ)

/-- `WaitReason` (`grants.ts:63-70`). -/
structure WaitReason (Id κ : Type) where
  id : Id
  key : κ
  holds : Bool
  deriving DecidableEq, Repr

/-- `collect` inside `explainWait` (`grants.ts:82-92`). -/
def collectReasons {Id : Type} (locks : List (LaneLock κ)) (holds : Bool)
    (occupants : List (LaneOccupant Id κ)) : List (WaitReason Id κ) :=
  occupants.flatMap fun occupant =>
    let table := LockTable.empty.take occupant.locks
    (locks.filter table.conflicts).map fun lock => ⟨occupant.id, lock.key, holds⟩

/-- `explainWait` (`grants.ts:76-96`). -/
def explainWait {Id : Type} (locks : List (LaneLock κ))
    (holders ahead : List (LaneOccupant Id κ)) : List (WaitReason Id κ) :=
  collectReasons locks true holders ++ collectReasons locks false ahead

/-! ## What a selection is -/

section selection

variable {locksOf : W → Option (List (LaneLock κ))} {admits : σ → W → Bool × σ}

/-- The locks of a waiter, none where they are unknown. -/
def lockList (locksOf : W → Option (List (LaneLock κ))) (waiter : W) : List (LaneLock κ) :=
  (locksOf waiter).getD []

variable {holders wanted : List (List (LaneLock κ))} {held blocked : LockTable κ}

theorem all_free_iff (hheld : held.Sums holders) (hblocked : blocked.Sums wanted) (locks : List (LaneLock κ)) :
    locks.all (fun lock => !held.conflicts lock && !blocked.conflicts lock) = true ↔
      (∀ other ∈ holders, ¬ Conflict other locks) ∧ ∀ other ∈ wanted, ¬ Conflict other locks := by
  rw [← hheld.free_iff, ← hblocked.free_iff, all_eq_true]
  simp only [Bool.and_eq_true, Bool.not_eq_true']
  exact ⟨fun h => ⟨fun l m => (h l m).1, fun l m => (h l m).2⟩, fun h l m => ⟨h.1 l m, h.2 l m⟩⟩

/-- A selection keeps whatever relation between states `admits` keeps. -/
theorem selectGrants_env {R : σ → σ → Prop} (hrefl : ∀ e, R e e)
    (htrans : ∀ a b c, R a b → R b c → R a c) (hadmits : ∀ e w, R e (admits e w).2)
    (held blocked : LockTable κ) (env : σ) (waiting : List W) :
    R env (selectGrants locksOf admits held blocked env waiting).env := by
  induction waiting generalizing held blocked env with
  | nil => exact hrefl env
  | cons waiter rest ih =>
    unfold selectGrants
    cases locksOf waiter with
    | none => exact hrefl env
    | some locks =>
      dsimp only
      split
      · split
        · exact htrans _ _ _ (hadmits env waiter) (ih _ _ _)
        · exact htrans _ _ _ (hadmits env waiter) (ih _ _ _)
      · exact ih _ _ _

theorem selectGrants_sublist (held blocked : LockTable κ) (env : σ) (waiting : List W) :
    (selectGrants locksOf admits held blocked env waiting).granted.Sublist waiting ∧
      (selectGrants locksOf admits held blocked env waiting).dropped.Sublist waiting := by
  induction waiting generalizing held blocked env with
  | nil => exact ⟨.slnil, .slnil⟩
  | cons waiter rest ih =>
    unfold selectGrants
    cases locksOf waiter with
    | none => exact ⟨nil_sublist _, nil_sublist _⟩
    | some locks =>
      dsimp only
      split
      · split
        · exact ⟨(ih _ _ _).1.cons_cons waiter, (ih _ _ _).2.cons waiter⟩
        · exact ⟨(ih _ _ _).1.cons waiter, (ih _ _ _).2.cons_cons waiter⟩
      · exact ⟨(ih _ _ _).1.cons waiter, (ih _ _ _).2.cons waiter⟩

variable {waiter : W} {waiting : List W}

theorem selectGrants_disjoint (held blocked : LockTable κ) (env : σ) (nodup : waiting.Nodup) :
    waiter ∈ (selectGrants locksOf admits held blocked env waiting).granted →
      waiter ∉ (selectGrants locksOf admits held blocked env waiting).dropped := by
  induction waiting generalizing held blocked env with
  | nil => simp [selectGrants]
  | cons first rest ih =>
    rw [nodup_cons] at nodup
    have later : ∀ held blocked env,
        first ∉ (selectGrants locksOf admits held blocked env rest).granted ∧
        first ∉ (selectGrants locksOf admits held blocked env rest).dropped := fun held blocked env =>
      ⟨fun h => nodup.1 ((selectGrants_sublist held blocked env rest).1.subset h),
        fun h => nodup.1 ((selectGrants_sublist held blocked env rest).2.subset h)⟩
    unfold selectGrants
    cases locksOf first with
    | none => simp
    | some locks =>
      dsimp only
      split
      · split
        · intro granted dropped
          rcases mem_cons.mp granted with rfl | granted
          · exact (later _ _ _).2 dropped
          · exact ih _ _ _ nodup.2 granted dropped
        · intro granted dropped
          rcases mem_cons.mp dropped with rfl | dropped
          · exact (later _ _ _).1 granted
          · exact ih _ _ _ nodup.2 granted dropped
      · exact ih _ _ _ nodup.2

theorem selectGrants_known (held blocked : LockTable κ) (env : σ)
    (h : waiter ∈ (selectGrants locksOf admits held blocked env waiting).granted ∨
      waiter ∈ (selectGrants locksOf admits held blocked env waiting).dropped) :
    ∃ locks, locksOf waiter = some locks := by
  induction waiting generalizing held blocked env with
  | nil => simp [selectGrants] at h
  | cons first rest ih =>
    unfold selectGrants at h
    cases found : locksOf first with
    | none => simp [found] at h
    | some locks =>
      simp only [found] at h
      split at h
      · split at h
        · rcases h with h | h
          · rcases mem_cons.mp h with rfl | h
            · exact ⟨locks, found⟩
            · exact ih _ _ _ (.inl h)
          · exact ih _ _ _ (.inr h)
        · rcases h with h | h
          · exact ih _ _ _ (.inl h)
          · rcases mem_cons.mp h with rfl | h
            · exact ⟨locks, found⟩
            · exact ih _ _ _ (.inr h)
      · exact ih _ _ _ h

variable (once : ∀ waiter locks, locksOf waiter = some locks → OneLockPerKey locks)

include once

theorem selectGrants_held (hheld : held.Sums holders) (blocked : LockTable κ) (env : σ) (waiting : List W) :
    (selectGrants locksOf admits held blocked env waiting).held.Sums
      ((selectGrants locksOf admits held blocked env waiting).granted.map (lockList locksOf) ++ holders) := by
  induction waiting generalizing held blocked env holders with
  | nil => exact hheld
  | cons waiter rest ih =>
    unfold selectGrants
    cases found : locksOf waiter with
    | none => exact hheld
    | some locks =>
      dsimp only
      split
      · split
        · have later := ih (hheld.take (once waiter locks found)) blocked (admits env waiter).2
          refine later.perm ?_
          simp only [map_cons, cons_append, lockList, found, Option.getD_some]
          exact perm_middle
        · exact ih hheld blocked _
      · exact ih hheld _ env

theorem selectGrants_apart (hheld : held.Sums holders) (hblocked : blocked.Sums wanted) (env : σ) (waiting : List W) :
    (∀ waiter ∈ (selectGrants locksOf admits held blocked env waiting).granted,
      ∀ other ∈ holders ++ wanted, ¬ Conflict other (lockList locksOf waiter)) ∧
    (selectGrants locksOf admits held blocked env waiting).granted.Pairwise
      (fun a b => ¬ Conflict (lockList locksOf a) (lockList locksOf b)) := by
  induction waiting generalizing held blocked env holders wanted with
  | nil => exact ⟨by simp [selectGrants], .nil⟩
  | cons first rest ih =>
    unfold selectGrants
    cases found : locksOf first with
    | none => exact ⟨by simp, .nil⟩
    | some locks =>
      dsimp only
      split
      · rename_i free
        obtain ⟨fromHeld, fromBlocked⟩ := (all_free_iff hheld hblocked locks).mp free
        have firstLocks : lockList locksOf first = locks := by simp [lockList, found]
        split
        · obtain ⟨apart, pair⟩ := ih (hheld.take (once first locks found)) hblocked (admits env first).2
          refine ⟨?_, ?_⟩
          · intro waiter member other among
            rcases mem_cons.mp member with rfl | member
            · rw [firstLocks]
              rcases mem_append.mp among with among | among
              · exact fromHeld other among
              · exact fromBlocked other among
            · exact apart waiter member other (by simp_all)
          · refine pairwise_cons.mpr ⟨fun waiter member => ?_, pair⟩
            rw [firstLocks]
            exact apart waiter member locks (by simp)
        · exact ih hheld hblocked _
      · obtain ⟨apart, pair⟩ := ih hheld (hblocked.take (once first locks found)) env
        refine ⟨fun waiter member other among => apart waiter member other ?_, pair⟩
        rw [mem_append, mem_cons]
        exact (mem_append.mp among).imp_right Or.inr

/-- Everything ahead of a granted operation has known locks, and unless it was chosen too, they don't conflict with the
granted ones. -/
theorem selectGrants_order (hheld : held.Sums holders)
    (hblocked : blocked.Sums wanted) (env : σ) {before after : List W}
    (nodup : (before ++ waiter :: after).Nodup)
    (h : waiter ∈ (selectGrants locksOf admits held blocked env (before ++ waiter :: after)).granted)
    {ahead : W} (hahead : ahead ∈ before) :
    (∃ locks, locksOf ahead = some locks) ∧
      (ahead ∈ (selectGrants locksOf admits held blocked env (before ++ waiter :: after)).granted ∨
        ahead ∈ (selectGrants locksOf admits held blocked env (before ++ waiter :: after)).dropped ∨
        ¬ Conflict (lockList locksOf ahead) (lockList locksOf waiter)) := by
  induction before generalizing held blocked env holders wanted with
  | nil => simp at hahead
  | cons first rest ih =>
    rw [cons_append, nodup_cons] at nodup
    have other : waiter ≠ first := by
      rintro rfl
      exact nodup.1 (by simp)
    rw [cons_append] at h ⊢
    unfold selectGrants at h ⊢
    cases found : locksOf first with
    | none => simp [found] at h
    | some locks =>
      simp only [found] at h ⊢
      split
      · rename_i free
        rw [if_pos free] at h
        split
        · rename_i yes
          rw [if_pos yes] at h
          have h := (mem_cons.mp h).resolve_left other
          rcases mem_cons.mp hahead with rfl | hahead
          · exact ⟨⟨locks, found⟩, .inl (mem_cons_self ..)⟩
          · obtain ⟨known, how⟩ := ih (hheld.take (once first locks found)) hblocked _ nodup.2 h hahead
            exact ⟨known, how.imp_left (mem_cons_of_mem _)⟩
        · rename_i no
          rw [if_neg no] at h
          rcases mem_cons.mp hahead with rfl | hahead
          · exact ⟨⟨locks, found⟩, .inr (.inl (mem_cons_self ..))⟩
          · obtain ⟨known, how⟩ := ih hheld hblocked _ nodup.2 h hahead
            exact ⟨known, how.imp_right (Or.imp_left (mem_cons_of_mem _))⟩
      · rename_i busy
        rw [if_neg busy] at h
        rcases mem_cons.mp hahead with rfl | hahead
        · refine ⟨⟨locks, found⟩, .inr (.inr ?_)⟩
          have apart := (selectGrants_apart once hheld
            (hblocked.take (once ahead locks found)) env (rest ++ waiter :: after)).1 waiter h
          have := apart locks (by simp)
          simpa [lockList, found] using this
        · exact ih hheld (hblocked.take (once first locks found)) env nodup.2 h hahead

/-- An operation left waiting, with no unknown locks ahead of it, has something in its way: a lock held once the
selection is done, one wanted ahead of the line, or one wanted by an operation ahead of it that is left waiting too. -/
theorem selectGrants_obstacle (hheld : held.Sums holders)
    (hblocked : blocked.Sums wanted) (env : σ) {before after : List W}
    (nodup : (before ++ waiter :: after).Nodup)
    (known : ∀ w ∈ before ++ [waiter], ∃ locks, locksOf w = some locks)
    (notGranted : waiter ∉ (selectGrants locksOf admits held blocked env (before ++ waiter :: after)).granted)
    (notDropped : waiter ∉ (selectGrants locksOf admits held blocked env (before ++ waiter :: after)).dropped) :
    (∃ other ∈ holders ++ wanted, Conflict other (lockList locksOf waiter)) ∨
    (∃ g ∈ (selectGrants locksOf admits held blocked env (before ++ waiter :: after)).granted,
      Conflict (lockList locksOf g) (lockList locksOf waiter)) ∨
    (∃ ahead ∈ before, ahead ∉ (selectGrants locksOf admits held blocked env (before ++ waiter :: after)).granted ∧
      ahead ∉ (selectGrants locksOf admits held blocked env (before ++ waiter :: after)).dropped ∧
      Conflict (lockList locksOf ahead) (lockList locksOf waiter)) := by
  induction before generalizing held blocked env holders wanted with
  | nil =>
    obtain ⟨locks, found⟩ := known waiter (by simp)
    rw [nil_append] at notGranted notDropped
    unfold selectGrants at notGranted notDropped
    simp only [found] at notGranted notDropped
    -- Free of the tables, it would have been chosen one way or the other.
    have busy : ¬ (locks.all fun lock => !held.conflicts lock && !blocked.conflicts lock) = true := by
      intro free
      rw [if_pos free] at notGranted notDropped
      by_cases yes : (admits env waiter).1 = true
      · rw [if_pos yes] at notGranted
        exact notGranted (mem_cons_self ..)
      · rw [if_neg yes] at notDropped
        exact notDropped (mem_cons_self ..)
    rw [all_free_iff hheld hblocked] at busy
    left
    have locksEq : lockList locksOf waiter = locks := by simp [lockList, found]
    by_contra none
    refine busy ⟨fun other among clash => none ⟨other, ?_, locksEq ▸ clash⟩,
      fun other among clash => none ⟨other, ?_, locksEq ▸ clash⟩⟩
    · exact mem_append_left _ among
    · exact mem_append_right _ among
  | cons first rest ih =>
    obtain ⟨locks, found⟩ := known first (by simp)
    have firstLocks : lockList locksOf first = locks := by simp [lockList, found]
    have knownRest : ∀ w ∈ rest ++ [waiter], ∃ locks, locksOf w = some locks :=
      fun w member => known w (mem_cons_of_mem _ member)
    rw [cons_append, nodup_cons] at nodup
    have notFirst : ∀ ahead ∈ rest, ahead ≠ first := by
      rintro ahead member rfl
      exact nodup.1 (mem_append_left _ member)
    rw [cons_append] at notGranted notDropped ⊢
    unfold selectGrants at notGranted notDropped ⊢
    simp only [found] at notGranted notDropped ⊢
    split
    · rename_i free
      rw [if_pos free] at notGranted notDropped
      split
      · rename_i yes
        rw [if_pos yes] at notGranted notDropped
        rcases ih (hheld.take (once first locks found)) hblocked _ nodup.2 knownRest
          (fun h => notGranted (mem_cons_of_mem _ h)) notDropped with
          ⟨other, among, clash⟩ | ⟨g, granted, clash⟩ | ⟨ahead, member, ng, nd, clash⟩
        · rcases mem_cons.mp among with rfl | among
          · exact .inr (.inl ⟨first, mem_cons_self .., firstLocks ▸ clash⟩)
          · exact .inl ⟨other, among, clash⟩
        · exact .inr (.inl ⟨g, mem_cons_of_mem _ granted, clash⟩)
        · refine Or.inr (.inr ⟨ahead, mem_cons_of_mem _ member, ?_, nd, clash⟩)
          exact fun h => (mem_cons.mp h).elim (notFirst ahead member) ng
      · rename_i no
        rw [if_neg no] at notGranted notDropped
        rcases ih hheld hblocked _ nodup.2 knownRest notGranted (fun h => notDropped (mem_cons_of_mem _ h)) with
          inHeld | granted | ⟨ahead, member, ng, nd, clash⟩
        · exact .inl inHeld
        · exact .inr (.inl granted)
        · refine Or.inr (.inr ⟨ahead, mem_cons_of_mem _ member, ng, ?_, clash⟩)
          exact fun h => (mem_cons.mp h).elim (notFirst ahead member) nd
    · rename_i busy
      rw [if_neg busy] at notGranted notDropped
      rcases ih hheld (hblocked.take (once first locks found)) env nodup.2 knownRest notGranted
        notDropped with ⟨other, among, clash⟩ | granted | ⟨ahead, member, ng, nd, clash⟩
      · by_cases same : other = locks
        · refine Or.inr (.inr ⟨first, mem_cons_self .., ?_, ?_, ?_⟩)
          · exact fun h => nodup.1 ((selectGrants_sublist _ _ _ _).1.subset h)
          · exact fun h => nodup.1 ((selectGrants_sublist _ _ _ _).2.subset h)
          · rw [firstLocks, ← same]; exact clash
        · refine Or.inl ⟨other, ?_, clash⟩
          rw [mem_append, mem_cons] at among
          rw [mem_append]
          exact among.imp_right (fun h => h.resolve_left same)
      · exact .inr (.inl granted)
      · exact .inr (.inr ⟨ahead, mem_cons_of_mem _ member, ng, nd, clash⟩)

/-- A line in which each operation has something in its way, or unknown locks ahead of it, is passed by, up to the first
unknown locks. -/
theorem selectGrants_behind (hheld : held.Sums holders) (hblocked : blocked.Sums wanted) (env : σ)
    (stuck : ∀ before waiter after, waiting = before ++ waiter :: after →
      (∀ w ∈ before ++ [waiter], ∃ locks, locksOf w = some locks) →
      (∃ other ∈ holders ++ wanted, Conflict other (lockList locksOf waiter)) ∨
        ∃ ahead ∈ before, Conflict (lockList locksOf ahead) (lockList locksOf waiter))
    (more : List W) :
    selectGrants locksOf admits held blocked env (waiting ++ more) = ⟨[], [], held, env⟩ ∨
      ∃ blocked', selectGrants locksOf admits held blocked env (waiting ++ more) =
        selectGrants locksOf admits held blocked' env more := by
  induction waiting generalizing blocked wanted with
  | nil => exact .inr ⟨blocked, rfl⟩
  | cons first rest ih =>
    rw [cons_append, selectGrants]
    cases found : locksOf first with
    | none => exact .inl rfl
    | some locks =>
      have firstLocks : lockList locksOf first = locks := by simp [lockList, found]
      dsimp only
      have busy : ¬ (locks.all fun lock => !held.conflicts lock && !blocked.conflicts lock) = true := by
        rw [all_free_iff hheld hblocked]
        rintro ⟨fromHeld, fromBlocked⟩
        rcases stuck [] first rest rfl (by simp [found]) with ⟨other, among, clash⟩ | ⟨_, none, _⟩
        · rw [firstLocks] at clash
          rcases mem_append.mp among with among | among
          · exact fromHeld other among clash
          · exact fromBlocked other among clash
        · simp at none
      rw [if_neg busy]
      refine ih (hblocked.take (once first locks found)) fun before waiter after shape known => ?_
      have known' : ∀ w ∈ first :: before ++ [waiter], ∃ locks, locksOf w = some locks := by
        intro w member
        rcases mem_cons.mp member with rfl | member
        · exact ⟨locks, found⟩
        · exact known w member
      rcases stuck (first :: before) waiter after (by rw [shape]; rfl) known' with
        ⟨other, among, clash⟩ | ⟨ahead, member, clash⟩
      · refine Or.inl ⟨other, ?_, clash⟩
        rw [mem_append, mem_cons]
        exact (mem_append.mp among).imp_right Or.inr
      · rcases mem_cons.mp member with rfl | member
        · exact .inl ⟨locks, by simp, firstLocks ▸ clash⟩
        · exact .inr ⟨ahead, member, clash⟩

end selection

end Kiln.Operations
