import Kiln.Lib.Transition

/-!
# Backups past their retention

expiredBackups and expiredBackupsEffect of apps/web/src/effect/backup-retention.ts, and the sweeps of
apps/web/src/lib/backup-maintenance.server.ts that delete what they find. Sweeps may overlap with each other, with new
backups and with changes of what targets keep, and retention still leaves every target its newest backup.
-/

namespace Kiln.Hearth
open Kiln.Lib List

inductive BackupStatus where
  | queued | running | available | failed | deleting | deleted
  deriving DecidableEq

inductive BackupReason where
  | manual | preRestore | finalDelete | scheduled
  deriving DecidableEq

structure BackupTarget where
  relayId : String
  kind : String
  id : String
  deriving DecidableEq

structure BackupRow where
  id : String
  target : BackupTarget
  createdAt : Nat
  bytes : Option Nat
  status : BackupStatus
  reason : BackupReason
  deriving DecidableEq

structure RetentionPolicyRow where
  target : BackupTarget
  quantityLimit : Option Nat := none
  sizeLimitBytes : Option Nat := none
  retentionDays : Option Nat := none
  adminQuantityLimit : Option Nat := none
  adminSizeLimitBytes : Option Nat := none
  adminRetentionDays : Option Nat := none

structure Retention where
  bytes : Option Nat
  days : Option Nat
  quantity : Option Nat

structure ExpiredBackup where
  backupId : String
  relayId : String

def lower : Option Nat → Option Nat → Option Nat
  | none, right => right
  | left, none => left
  | some left, some right => some (min left right)

namespace RetentionPolicyRow
variable (policy : RetentionPolicyRow)

def retention : Retention where
  bytes := lower policy.sizeLimitBytes policy.adminSizeLimitBytes
  days := lower policy.retentionDays policy.adminRetentionDays
  quantity := lower policy.quantityLimit policy.adminQuantityLimit

/-- The query's `COALESCE(...) IS NOT NULL` -/
def limits : Bool := [policy.quantityLimit, policy.sizeLimitBytes, policy.retentionDays, policy.adminQuantityLimit,
  policy.adminSizeLimitBytes, policy.adminRetentionDays].any Option.isSome

end RetentionPolicyRow

/-- Among the backups that retention looks at for a target. -/
def BackupRow.IsKept (row : BackupRow) (target : BackupTarget) : Prop :=
  row.target = target ∧ row.status = .available ∧ row.reason ≠ .finalDelete
  deriving Decidable

def BackupRow.since (row : BackupRow) : Nat ×ₗ String := toLex (row.createdAt, row.id)

/-- `created_at DESC, id DESC` -/
def NewestFirst (left right : BackupRow) : Prop := right.since ≤ left.since
  deriving Decidable

instance : Std.Total NewestFirst := ⟨fun left right => le_total right.since left.since⟩

instance : IsTrans BackupRow NewestFirst := ⟨fun _ _ _ newer older => older.trans newer⟩

def keptBackups (rows : List BackupRow) (target : BackupTarget) : List BackupRow :=
  (rows.filter (·.IsKept target)).insertionSort NewestFirst

def dayMs : Nat := 24 * 60 * 60000

section
variable (retention : Retention) (now : Int)

/-- Whether the backup at an index is let go of, with the space that it and those before it take. -/
def Retention.LetsGo (index total : Nat) (backup : BackupRow) : Prop :=
  index ≠ 0 ∧ ((∃ quantity ∈ retention.quantity, quantity ≤ index) ∨
    (∃ days ∈ retention.days, (backup.createdAt : Int) < now - days * dayMs) ∨
    ∃ bytes ∈ retention.bytes, bytes < total)
  deriving Decidable

/-- The filter of `expiredBackups`, from an index and the space that the backups before it take -/
def expiredBackupsFrom : Nat → Nat → List BackupRow → List BackupRow
  | _, _, [] => []
  | index, total, backup :: rest =>
    let total := total + backup.bytes.getD 0
    let expired := expiredBackupsFrom (index + 1) total rest
    if retention.LetsGo now index total backup then backup :: expired else expired

def expiredBackups (backups : List BackupRow) : List BackupRow := expiredBackupsFrom retention now 0 0 backups

end

def expiredBackupsEffect (policies : List RetentionPolicyRow) (rows : List BackupRow) (now : Int) : List ExpiredBackup :=
  ((policies.filter (·.limits)).flatMap fun policy =>
    expiredBackups policy.retention now (keptBackups rows policy.target)).insertionSort (·.createdAt ≤ ·.createdAt)
  |>.map fun backup => ⟨backup.id, backup.target.relayId⟩

/-- A pass of `applyRetention`: how many deletes it started, and the expired backups still ahead of it. -/
structure RetentionPass where
  started : Nat := 0
  pending : List ExpiredBackup

structure RetentionWorld where
  policies : List RetentionPolicyRow := []
  rows : List BackupRow := []
  passes : List RetentionPass := []

inductive RetentionEvent where
  | policies (policies : List RetentionPolicyRow)
  | made (row : BackupRow)
  | begins (now : Int)
  /-- A pass comes to its next backup, whose Relay may be disabled, which a restore, a copy or a final deletion may hold
  up, and whose archive another backup may share. -/
  | takes (pass : Nat) (enabled held shared : Bool)

def maxDeletesPerSweep : Nat := 50

/-- What `reserveBackupDeleteEffect` leaves of a backup: it deletes complete and failed ones. -/
def BackupRow.reserve (backupId : String) (shared : Bool) (row : BackupRow) : BackupRow :=
  if row.id = backupId ∧ (row.status = .available ∨ row.status = .failed) then
    { row with status := if shared then .deleted else .deleting }
  else row

def RetentionWorld.next (world : RetentionWorld) : RetentionEvent → Option RetentionWorld
  | .policies policies => some { world with policies }
  | .made row =>
    if row.id ∉ world.rows.map (·.id) ∧ row.status = .available then some { world with rows := world.rows ++ [row] }
    else none
  | .begins now =>
    some { world with passes := world.passes ++ [{ pending := expiredBackupsEffect world.policies world.rows now }] }
  | .takes number enabled held shared =>
    match world.passes[number]? with
    | some ⟨started, backup :: rest⟩ =>
      if started ≥ maxDeletesPerSweep then some { world with passes := world.passes.set number ⟨started, []⟩ }
      else if enabled ∧ ¬ held ∧ ∃ row ∈ world.rows, row.reserve backup.backupId shared ≠ row then
        some { world with
          rows := world.rows.map (·.reserve backup.backupId shared)
          passes := world.passes.set number ⟨started + 1, rest⟩ }
      else some { world with passes := world.passes.set number ⟨started, rest⟩ }
    | _ => none

def retentionSystem : System RetentionWorld RetentionEvent := .ofFunction (· = {}) RetentionWorld.next

/-- What a target's retention says of one of its backups: some are newer, and with them it's past the number, the space
or the age that the target keeps. -/
def PastRetention (rows : List BackupRow) (retention : Retention) (now : Int) (backup : BackupRow) : Prop :=
  let newer := rows.filter fun row => row.IsKept backup.target ∧ backup.since < row.since
  retention.LetsGo now newer.length ((newer.map (·.bytes.getD 0)).sum + backup.bytes.getD 0) backup

variable {rows : List BackupRow} {retention : Retention} {now : Int} {a b : BackupRow} {target : BackupTarget}

theorem BackupRow.id_eq_of_since (same : a.since = b.since) : a.id = b.id :=
  congrArg (fun since => (ofLex since).2) same

theorem keptBackups_perm : (keptBackups rows target).Perm (rows.filter (·.IsKept target)) := perm_insertionSort _ _

theorem mem_keptBackups : a ∈ keptBackups rows target ↔ a ∈ rows ∧ a.IsKept target := by
  rw [keptBackups_perm.mem_iff, mem_filter, decide_eq_true_iff]

theorem keptBackups_pairwise (keyed : (rows.map (·.id)).Nodup) :
    (keptBackups rows target).Pairwise fun a b => b.since < a.since := by
  have distinct : ((keptBackups rows target).map (·.id)).Nodup :=
    (keptBackups_perm.map _).nodup_iff.mpr (keyed.sublist (filter_sublist.map _))
  refine ((pairwise_insertionSort NewestFirst _).and (pairwise_map.mp distinct)).imp ?_
  rintro a b ⟨older, apart⟩
  exact lt_of_le_of_ne older fun same => apart (BackupRow.id_eq_of_since same).symm

theorem expiredBackupsFrom_sublist (index total : Nat) (backups : List BackupRow) :
    (expiredBackupsFrom retention now index total backups).Sublist backups := by
  induction backups generalizing index total with
  | nil => exact .slnil
  | cons backup rest ih =>
    unfold expiredBackupsFrom
    dsimp only
    split
    · exact (ih _ _).cons_cons backup
    · exact (ih _ _).cons backup

/-- The index and the space that the filter is at are those of the backups before it, which are the newer ones. -/
theorem mem_expiredBackupsFrom (seen rest : List BackupRow)
    (sorted : (seen ++ rest).Pairwise fun a b => b.since < a.since) :
    b ∈ expiredBackupsFrom retention now seen.length (seen.map (·.bytes.getD 0)).sum rest ↔
      b ∈ rest ∧ let newer := (seen ++ rest).filter fun row => b.since < row.since
        retention.LetsGo now newer.length ((newer.map (·.bytes.getD 0)).sum + b.bytes.getD 0) b := by
  induction rest generalizing seen with
  | nil => simp [expiredBackupsFrom]
  | cons backup rest ih =>
    have split := pairwise_append.mp sorted
    have later := pairwise_cons.mp split.2.1
    have next := ih (seen ++ [backup]) (by simpa using sorted)
    simp only [length_append, length_singleton, map_append, map_singleton, sum_append, sum_singleton, append_assoc,
      singleton_append] at next
    simp only [expiredBackupsFrom]
    by_cases is : b = backup
    · subst is
      have newer : (seen ++ b :: rest).filter (fun row => b.since < row.since) = seen := by
        rw [filter_append, filter_eq_self.mpr, filter_eq_nil_iff.mpr, append_nil]
        · rintro row (_ | ⟨_, older⟩)
          · simp
          · simpa using (later.1 row older).le
        · intro row newer
          exact decide_eq_true (split.2.2 row newer b mem_cons_self)
      have once : ∀ index total, b ∉ expiredBackupsFrom retention now index total rest := fun index total again =>
        (later.1 b ((expiredBackupsFrom_sublist index total rest).mem again)).false
      rw [newer]
      split
      · rename_i goes
        exact ⟨fun _ => ⟨mem_cons_self, goes⟩, fun _ => mem_cons_self⟩
      · rename_i stays
        exact ⟨fun again => absurd again (once _ _), fun goes => absurd goes.2 stays⟩
    · rw [mem_cons, or_iff_right is, ← next]
      split
      · rw [mem_cons, or_iff_right is]
      · rfl

theorem mem_expiredBackups (keyed : (rows.map (·.id)).Nodup) :
    b ∈ expiredBackups retention now (keptBackups rows target) ↔
      b ∈ rows ∧ b.IsKept target ∧ PastRetention rows retention now b := by
  refine (mem_expiredBackupsFrom [] (keptBackups rows target) (keptBackups_pairwise keyed)).trans ?_
  rw [mem_keptBackups, and_assoc]
  refine and_congr_right fun _ => and_congr_right fun kept => ?_
  have newer := (@keptBackups_perm rows target).filter fun row => b.since < row.since
  rw [filter_filter] at newer
  simp only [nil_append, PastRetention, newer.length_eq, (newer.map _).sum_eq, kept.1, Bool.decide_and, Bool.and_comm]

/-- What the query leaves out lets go of nothing. -/
theorem RetentionPolicyRow.limits_of_letsGo {policy : RetentionPolicyRow} {index total : Nat}
    (goes : policy.retention.LetsGo now index total b) : policy.limits = true := by
  by_contra without
  obtain ⟨_, ⟨_⟩ | _, ⟨_⟩ | _, ⟨_⟩ | _, ⟨_⟩ | _, ⟨_⟩ | _, ⟨_⟩ | _⟩ := policy <;>
    simp [limits] at without
  simp [Retention.LetsGo, retention, lower] at goes

variable {policies : List RetentionPolicyRow} {backup : ExpiredBackup}

/-- A sweep finds just the backups that some policy of their target doesn't keep. -/
theorem mem_expiredBackupsEffect (keyed : (rows.map (·.id)).Nodup) :
    backup ∈ expiredBackupsEffect policies rows now ↔
      ∃ row ∈ rows, (⟨row.id, row.target.relayId⟩ : ExpiredBackup) = backup ∧
        ∃ policy ∈ policies, row.IsKept policy.target ∧ PastRetention rows policy.retention now row := by
  simp only [expiredBackupsEffect, mem_map, mem_insertionSort, mem_flatMap, mem_filter, mem_expiredBackups keyed]
  constructor
  · rintro ⟨row, ⟨policy, ⟨mem, _⟩, row_mem, kept, past⟩, is⟩
    exact ⟨row, row_mem, is, policy, mem, kept, past⟩
  · rintro ⟨row, row_mem, is, policy, mem, kept, past⟩
    exact ⟨row, ⟨policy, ⟨mem, RetentionPolicyRow.limits_of_letsGo past⟩, row_mem, kept, past⟩, is⟩

theorem BackupRow.reserve_kept {id : String} {shared : Bool} (row : BackupRow) :
    (row.reserve id shared).id = row.id ∧ (row.reserve id shared).target = row.target ∧
      (row.reserve id shared).since = row.since ∧ (row.reserve id shared).reason = row.reason := by
  unfold reserve
  split
  · exact ⟨rfl, rfl, rfl, rfl⟩
  · exact ⟨rfl, rfl, rfl, rfl⟩

/-- The backups that the passes under way still come to. -/
def RetentionWorld.pending (world : RetentionWorld) : List ExpiredBackup := world.passes.flatMap (·.pending)

/-- What holds between the steps: no pass comes to a target's newest backup. -/
structure RetentionKept (world : RetentionWorld) : Prop where
  keyed : (world.rows.map (·.id)).Nodup
  known : ∀ expired ∈ world.pending, expired.backupId ∈ world.rows.map (·.id)
  newest : ∀ row ∈ world.rows, row.reason ≠ .finalDelete → ∃ kept ∈ world.rows, kept.IsKept row.target ∧
    row.since ≤ kept.since ∧ ∀ expired ∈ world.pending, expired.backupId ≠ kept.id

namespace RetentionKept
variable {world after : RetentionWorld}

theorem begins (kept : RetentionKept world) (now : Int) :
    RetentionKept { world with passes := world.passes ++
      [{ pending := expiredBackupsEffect world.policies world.rows now }] } := by
  refine ⟨kept.keyed, ?_, ?_⟩ <;> simp only [RetentionWorld.pending, flatMap_append, flatMap_singleton, mem_append]
  · rintro expired (earlier | found)
    · exact kept.known expired earlier
    · obtain ⟨row, row_mem, rfl, _⟩ := (mem_expiredBackupsEffect kept.keyed).mp found
      exact mem_map_of_mem row_mem
  · intro row mem counts
    -- The newest of those that no earlier pass comes to is the newest of all, so this pass doesn't find it either.
    obtain ⟨first, first_mem, first_kept, newer, _⟩ := kept.newest row mem counts
    obtain ⟨last, listed, newest⟩ := Finset.exists_max_image ({other ∈ world.rows.toFinset | other.IsKept row.target})
      (·.since) ⟨first, by simpa using ⟨first_mem, first_kept⟩⟩
    simp only [Finset.mem_filter, mem_toFinset, and_imp] at listed newest
    obtain ⟨free, free_mem, free_kept, same, apart⟩ := kept.newest last listed.1 listed.2.2.2
    have is : free = last := inj_on_of_nodup_map kept.keyed free_mem listed.1 <|
      BackupRow.id_eq_of_since (le_antisymm (newest free free_mem (listed.2.1 ▸ free_kept)) same)
    refine ⟨last, listed.1, listed.2, newer.trans (newest first first_mem first_kept), ?_⟩
    rintro expired (earlier | found) is_last
    · exact apart expired earlier (is ▸ is_last)
    · obtain ⟨row', row_mem, rfl, _, _, _, past⟩ := (mem_expiredBackupsEffect kept.keyed).mp found
      cases inj_on_of_nodup_map kept.keyed row_mem listed.1 is_last
      obtain ⟨other, between⟩ := exists_mem_of_length_pos (Nat.pos_of_ne_zero past.1)
      simp only [mem_filter, decide_eq_true_eq] at between
      exact (between.2.2.trans_le (newest other between.1 (listed.2.1 ▸ between.2.1))).false

theorem reserves (kept : RetentionKept world) {backup : ExpiredBackup} (pending : backup ∈ world.pending)
    (shared : Bool) : RetentionKept { world with rows := world.rows.map (·.reserve backup.backupId shared) } := by
  have ids : (world.rows.map (·.reserve backup.backupId shared)).map (·.id) = world.rows.map (·.id) := by
    rw [map_map]
    exact map_congr_left fun row _ => row.reserve_kept.1
  refine ⟨ids ▸ kept.keyed, fun expired pending => ids ▸ kept.known expired pending, fun row' mem' counts => ?_⟩
  obtain ⟨row, row_mem, rfl⟩ := mem_map.mp mem'
  rw [row.reserve_kept.2.2.2] at counts
  obtain ⟨last, last_mem, last_kept, newer, apart⟩ := kept.newest row row_mem counts
  have stays : last.reserve backup.backupId shared = last := if_neg fun taken => apart backup pending taken.1.symm
  rw [row.reserve_kept.2.1, row.reserve_kept.2.2.1]
  exact ⟨last, mem_map.mpr ⟨last, last_mem, stays⟩, last_kept, newer, apart⟩

theorem fewer (kept : RetentionKept world) {passes : List RetentionPass}
    (less : passes.flatMap (·.pending) ⊆ world.pending) : RetentionKept { world with passes } where
  keyed := kept.keyed
  known expired pending := kept.known expired (less pending)
  newest row mem counts := by
    obtain ⟨last, last_mem, last_kept, newer, apart⟩ := kept.newest row mem counts
    exact ⟨last, last_mem, last_kept, newer, fun expired pending => apart expired (less pending)⟩

theorem made (kept : RetentionKept world) {row : BackupRow} (fresh : row.id ∉ world.rows.map (·.id))
    (available : row.status = .available) : RetentionKept { world with rows := world.rows ++ [row] } := by
  refine ⟨?_, fun expired pending => ?_, fun other mem counts => ?_⟩
  · rw [map_append]
    exact kept.keyed.append (nodup_singleton _) (by simpa using fresh)
  · rw [map_append]
    exact mem_append_left _ (kept.known expired pending)
  · rcases mem_append.mp mem with mem | mem
    · obtain ⟨last, last_mem, rest⟩ := kept.newest other mem counts
      exact ⟨last, mem_append_left _ last_mem, rest⟩
    · cases mem_singleton.mp mem
      exact ⟨row, mem_append_right _ mem, ⟨rfl, available, counts⟩, le_rfl,
        fun expired pending same => fresh (same ▸ kept.known expired pending)⟩

theorem next (kept : RetentionKept world) {event : RetentionEvent} (step : world.next event = some after) :
    RetentionKept after := by
  cases event with
  | policies policies =>
    cases step
    exact ⟨kept.keyed, kept.known, kept.newest⟩
  | made row =>
    obtain ⟨⟨fresh, available⟩, same⟩ := Option.ite_none_right_eq_some.mp step
    cases same
    exact kept.made fresh available
  | begins now =>
    cases step
    exact kept.begins now
  | takes number enabled held shared =>
    simp only [RetentionWorld.next] at step
    split at step
    · rename_i started backup rest at_
      have less : ∀ {later left}, left ⊆ rest →
          (world.passes.set number ⟨later, left⟩).flatMap (·.pending) ⊆ world.pending := by
        intro later left fewer expired pending
        obtain ⟨pass, mem, pending⟩ := mem_flatMap.mp pending
        rcases mem_or_eq_of_mem_set mem with mem | rfl
        · exact mem_flatMap.mpr ⟨pass, mem, pending⟩
        · exact mem_flatMap.mpr ⟨_, mem_of_getElem? at_, mem_cons_of_mem _ (fewer pending)⟩
      have next : backup ∈ world.pending := mem_flatMap.mpr ⟨_, mem_of_getElem? at_, mem_cons_self⟩
      split at step
      · cases step
        exact kept.fewer (less (nil_subset _))
      · split at step
        · cases step
          exact (kept.reserves next shared).fewer (less (Subset.refl _))
        · cases step
          exact kept.fewer (less (Subset.refl _))
    · cases step

end RetentionKept

/-- However sweeps overlap with each other, with new backups and with changes of policies, every target that had a
backup still has one that's at least as new, for as long as no one deletes them by hand; and the next sweep finds just
the backups that a policy of their target doesn't keep, counted with those newer than them. -/
theorem retention_keepsNewest : ∀ world, retentionSystem.Reachable world →
    (∀ row ∈ world.rows, row.reason ≠ .finalDelete →
      ∃ kept ∈ world.rows, kept.IsKept row.target ∧ row.since ≤ kept.since) ∧
    ∀ now backup, backup ∈ expiredBackupsEffect world.policies world.rows now ↔
      ∃ row ∈ world.rows, (⟨row.id, row.target.relayId⟩ : ExpiredBackup) = backup ∧
        ∃ policy ∈ world.policies, row.IsKept policy.target ∧ PastRetention world.rows policy.retention now row := by
  intro world reachable
  have kept : RetentionKept world := by
    refine reachable.invariant (I := RetentionKept) ?_ fun _ event _ kept step => kept.next step
    rintro _ rfl
    exact ⟨nodup_nil, fun _ none_ => absurd none_ not_mem_nil, fun _ none_ => absurd none_ not_mem_nil⟩
  refine ⟨fun row mem counts => ?_, fun now backup => mem_expiredBackupsEffect kept.keyed⟩
  obtain ⟨last, last_mem, last_kept, newer, _⟩ := kept.newest row mem counts
  exact ⟨last, last_mem, last_kept, newer⟩

theorem retention_keepsNewest_pastNumber : ∃ world, retentionSystem.Reachable world ∧
    world.rows.map (fun row => (row.id, row.status)) = [("a", .deleting), ("b", .available)] ∧
    ∀ row ∈ world.rows, row.reason ≠ .finalDelete →
      ∃ kept ∈ world.rows, kept.IsKept row.target ∧ row.since ≤ kept.since := by
  let target : BackupTarget := ⟨"relay", "instance", "game"⟩
  have reachable := System.reachable_of_runAll (· = ({} : RetentionWorld)) RetentionWorld.next rfl
    [.policies [{ target, quantityLimit := some 1 }], .made ⟨"a", target, 1, none, .available, .scheduled⟩,
      .made ⟨"b", target, 2, some 10, .available, .scheduled⟩, .begins 3, .takes 0 true false false] (by decide)
  exact ⟨_, reachable, by decide, (retention_keepsNewest _ reachable).1⟩

end Kiln.Hearth
