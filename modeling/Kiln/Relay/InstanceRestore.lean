import Kiln.Lib.Script

/-!
# Restoring a game server's folder

Once a restore's files are staged beside a server's folder, they are swapped in for the server's
own, and a journal says how far that is (`apps/relay/src/backup-restore.ts:138-189`). A Relay that
stopped midway settles the journal as it starts (`:163-187`, `:541-588`), which may be cut off too.

A restore that fails while the Relay runs on is settled by what its journal is in memory (`:92-103`).

A folder is moved or removed as a whole, and the journal replaced as a whole. A step is a call on the
disk with what is noted in memory right after it; the paths of one restore are all there are.
-/

namespace Kiln.Relay
open Kiln.Lib

/-- `RestorePhase` (`backup-restore.ts:40`). -/
inductive RestorePhase where
  | extracting
  | prepared
  | movedOriginal
  | installed
  deriving DecidableEq, Repr

/-- A server's folder as it was or as it is restored, and what it holds. -/
inductive ServerFolder (α : Type*) where
  | own (content : α)
  | restored (content : α)
  deriving DecidableEq, Repr

/-- The folders of a restore (`restorePaths`, `backup-restore.ts:590-606`). -/
inductive RestorePath where
  | instance'
  | rollback
  | staging
  deriving DecidableEq, Repr

/-- What there is of a restore: its folders, its archive, its journal on disk, and the phase of the journal in memory
(`prepared.journal`) while the Relay that began it works on it. -/
structure RestoreDisk (α : Type*) where
  instance' : Option (ServerFolder α)
  rollback : Option (ServerFolder α) := none
  staging : Option (ServerFolder α) := none
  archive : Bool := false
  journal : Option RestorePhase := none
  prepared : Option RestorePhase := none
  deriving DecidableEq, Repr

namespace RestoreDisk

variable {α : Type*}

def folder (disk : RestoreDisk α) : RestorePath → Option (ServerFolder α)
  | .instance' => disk.instance'
  | .rollback => disk.rollback
  | .staging => disk.staging

def put (disk : RestoreDisk α) : RestorePath → Option (ServerFolder α) → RestoreDisk α
  | .instance', folder => { disk with instance' := folder }
  | .rollback, folder => { disk with rollback := folder }
  | .staging, folder => { disk with staging := folder }

end RestoreDisk

/-- One step. -/
inductive RestoreStep where
  | writeJournal (phase : RestorePhase)
  /-- A folder is moved, and the journal in memory is at `noted` if that is given. -/
  | rename (source target : RestorePath) (noted : Option RestorePhase)
  | remove (path : RestorePath)
  | removeArchive
  | removeJournal
  /-- What failed is settled, and no longer worked on. -/
  | giveUp
  deriving DecidableEq, Repr

/-- What a step leaves. A folder that isn't there can't be moved, nor one over another. -/
def RestoreStep.apply {α : Type*} (disk : RestoreDisk α) : RestoreStep → Option (RestoreDisk α)
  | .writeJournal phase => some { disk with journal := some phase }
  | .rename source target noted =>
      match disk.folder source, disk.folder target with
      | some folder, none =>
          let moved := (disk.put source none).put target (some folder)
          some { moved with prepared := noted.or moved.prepared }
      | _, _ => none
  | .remove path => some (disk.put path none)
  | .removeArchive => some { disk with archive := false }
  | .removeJournal => some { disk with journal := none }
  | .giveUp => some { disk with prepared := none }

/-- `installPreparedInstanceRestore` (`backup-restore.ts:138-161`), once its gate let it begin and the journal in memory
is `prepared`. -/
def installSteps : List RestoreStep :=
  [.writeJournal .prepared, .rename .instance' .rollback (some .movedOriginal),
    .writeJournal .movedOriginal, .rename .staging .instance' (some .installed),
    .writeJournal .installed, .remove .rollback, .removeArchive, .removeJournal]

/-- What `settleRestoreJournal` does about the folders, and whether it completes the restore
(`backup-restore.ts:552-585`). -/
def settleFolders {α : Type*} (disk : RestoreDisk α) (phase : RestorePhase)
    (preferComplete : Bool) : List RestoreStep × Bool :=
  let instanceExists := disk.instance'.isSome
  let rollbackExists := disk.rollback.isSome
  let stagingExists := disk.staging.isSome
  if phase = .installed && instanceExists then ([.remove .rollback, .remove .staging], true)
  else if phase = .installed && stagingExists then
    ([.rename .staging .instance' none, .remove .rollback], true)
  else if phase = .installed && rollbackExists then ([.rename .rollback .instance' none], false)
  else if preferComplete && !instanceExists && rollbackExists && stagingExists then
    ([.rename .staging .instance' none, .remove .rollback], true)
  else if preferComplete && instanceExists && rollbackExists then
    ([.remove .rollback, .remove .staging], true)
  else if !preferComplete && rollbackExists then
    ((if instanceExists then [.remove .instance'] else []) ++
      [.rename .rollback .instance' none, .remove .staging], false)
  else ([.remove .staging], false)

/-- `settleRestoreJournal` (`backup-restore.ts:541-588`). -/
def settleRestoreJournal {α : Type*} (disk : RestoreDisk α) (phase : RestorePhase)
    (preferComplete : Bool) : List RestoreStep × Bool :=
  let settled := settleFolders disk phase preferComplete
  (settled.1 ++ [.removeArchive, .removeJournal], settled.2)

/-- Why a restore's journal is settled. -/
inductive Settling where
  /-- Its restore failed in this process (`backup-restore.ts:92-97`). -/
  | failed
  /-- The Relay starts, and finds it (`recoverInterruptedRestores`, `:170-189`). -/
  | started
  deriving DecidableEq, Repr

/-- How a restore's journal is settled, and whether that completes the restore. -/
def planSettling {α : Type*} (disk : RestoreDisk α) : Settling → Option (List RestoreStep × Bool)
  | .failed => disk.prepared.map fun phase =>
      let settled := settleRestoreJournal disk phase false
      (.giveUp :: settled.1, settled.2)
  | .started =>
      match disk.prepared with
      | some _ => none
      | none => disk.journal.map fun phase => settleRestoreJournal disk phase true

/-- A restore and the settlings that follow it. -/
def restoreScript (α : Type*) : Script (RestoreDisk α) RestoreStep Bool Settling where
  step disk step := (step.apply disk).map (·, [])
  plan := planSettling
  restart disk := { disk with prepared := none }

variable {α : Type*}

/-- The disk with all staged for a restore. -/
def stagedDisk (original restored : α) (archive : Bool) (noted : RestorePhase) : RestoreDisk α :=
  ⟨some (.own original), none, some (.restored restored), archive, some .extracting, some noted⟩

/-- A restore begins, its files staged, or was stopped by its gate just before. -/
def BeginsRestore (original restored : α) (site : Worksite (RestoreDisk α) RestoreStep Bool) :
    Prop :=
  ∃ archive, site = ⟨stagedDisk original restored archive .prepared,
      some ⟨installSteps, true, stagedDisk original restored archive .prepared⟩⟩ ∨
    site = ⟨stagedDisk original restored archive .extracting, none⟩

/-- A restore and any settlings of it, all cut off anywhere. -/
def restoreSystem (original restored : α) :
    System (Worksite (RestoreDisk α) RestoreStep Bool) (WorkEvent Settling) :=
  (restoreScript α).system (BeginsRestore original restored)

/-! ## What may be found on disk -/

/-- What may be found, whenever a restore or a settling is cut off: where the folders are, by the phase on disk and the
one in memory. -/
inductive Midway (original restored : α) : RestoreDisk α → Prop
  | staged (archive : Bool) (phase : RestorePhase) (prepared : Option RestorePhase) (early : phase ≠ .installed)
      (noted : ∀ p ∈ prepared, p = .extracting ∨ p = .prepared) :
      Midway original restored ⟨some (.own original), none, some (.restored restored), archive, some phase, prepared⟩
  | discarded (archive : Bool) (phase : RestorePhase) (early : phase ≠ .installed) :
      Midway original restored ⟨some (.own original), none, none, archive, some phase, none⟩
  | moved (archive : Bool) (phase : RestorePhase) (prepared : Option RestorePhase) (early : phase ≠ .installed)
      (noted : ∀ p ∈ prepared, p = .movedOriginal) :
      Midway original restored ⟨none, some (.own original), some (.restored restored), archive, some phase, prepared⟩
  | swapped (archive : Bool) (phase : RestorePhase) (prepared : Option RestorePhase)
      (noted : ∀ p ∈ prepared, p = .installed) :
      Midway original restored ⟨some (.restored restored), some (.own original), none, archive, some phase, prepared⟩
  | cleaned (archive : Bool) (phase : RestorePhase) (prepared : Option RestorePhase)
      (noted : ∀ p ∈ prepared, p = .installed) :
      Midway original restored ⟨some (.restored restored), none, none, archive, some phase, prepared⟩
  | undone : Midway original restored ⟨some (.own original), none, none, false, none, none⟩
  | done (prepared : Option RestorePhase) (noted : ∀ p ∈ prepared, p = .installed) :
      Midway original restored ⟨some (.restored restored), none, none, false, none, prepared⟩

/-- The restored files are in place, and nothing a settling reads says so. -/
def Unsaid (restored : α) (disk : RestoreDisk α) : Prop :=
  disk.instance' = some (.restored restored) ∧ disk.rollback = none ∧ disk.prepared.or disk.journal ≠ some .installed

/-- What work on a restore that ran to its end leaves: nothing but the server's folder, wholly its own or wholly the one
restored. -/
structure Settled (original restored : α) (disk : RestoreDisk α) : Prop where
  whole : disk.instance' = some (.own original) ∨ disk.instance' = some (.restored restored)
  noRollback : disk.rollback = none
  noStaging : disk.staging = none
  noArchive : disk.archive = false
  noJournal : disk.journal = none

/-- Work on a restore that ran to its end left it settled, and what it reports is right exactly if it was told what was
done. -/
structure Recovered (original restored : α) (began : RestoreDisk α) (completed : Bool)
    (disk : RestoreDisk α) : Prop where
  settled : Settled original restored disk
  reports : (completed = true ↔ disk.instance' = some (.restored restored)) ↔ ¬ Unsaid restored began

/-! ## Every way to settle a restore is safe -/

variable {original restored : α} {began : RestoreDisk α} {completed : Bool}

/-- What is left of a restore is safe to do: it stays midway, and then is recovered. -/
abbrev RestoresSafely (original restored : α) (began : RestoreDisk α) (completed : Bool) :
    RestoreDisk α → List RestoreStep → Prop :=
  (restoreScript α).Safe (Midway original restored) (Recovered original restored began completed)

theorem undone_safe (told : ¬ Unsaid restored began) (reported : completed = false) :
    RestoresSafely original restored began completed ⟨some (.own original), none, none, false, none, none⟩ [] := by
  refine .done .undone ⟨⟨.inl rfl, rfl, rfl, rfl, rfl⟩, ?_⟩
  simp [told, reported]

variable {prepared : Option RestorePhase}

theorem done_safe (noted : ∀ p ∈ prepared, p = .installed) (told : completed = true ↔ ¬ Unsaid restored began) :
    RestoresSafely original restored began completed
      ⟨some (.restored restored), none, none, false, none, prepared⟩ [] := by
  refine .done (.done prepared noted) ⟨⟨.inr rfl, rfl, rfl, rfl, rfl⟩, ?_⟩
  simp [told]

variable {phase : RestorePhase} {archive : Bool}

theorem discarded_safe (early : phase ≠ .installed) (told : ¬ Unsaid restored began) (reported : completed = false) :
    RestoresSafely original restored began completed ⟨some (.own original), none, none, archive, some phase, none⟩
      [.removeArchive, .removeJournal] := by
  refine .next (.discarded archive phase early) rfl ?_
  refine .next (.discarded false phase early) rfl ?_
  exact undone_safe told reported

theorem cleaned_safe (noted : ∀ p ∈ prepared, p = .installed) (told : completed = true ↔ ¬ Unsaid restored began) :
    RestoresSafely original restored began completed
      ⟨some (.restored restored), none, none, archive, some phase, prepared⟩
      [.removeArchive, .removeJournal] := by
  refine .next (.cleaned archive phase prepared noted) rfl ?_
  refine .next (.cleaned false phase prepared noted) rfl ?_
  exact done_safe noted told

/-- The server's own files are back, and those staged are given up. -/
theorem staged_safe (early : phase ≠ .installed) (told : ¬ Unsaid restored began) (reported : completed = false) :
    RestoresSafely original restored began completed
      ⟨some (.own original), none, some (.restored restored), archive, some phase, none⟩
      [.remove .staging, .removeArchive, .removeJournal] := by
  refine .next (.staged archive phase none early (by simp)) rfl ?_
  exact discarded_safe early told reported

theorem swapped_safe (noted : ∀ p ∈ prepared, p = .installed) (told : completed = true ↔ ¬ Unsaid restored began) :
    RestoresSafely original restored began completed
      ⟨some (.restored restored), some (.own original), none, archive, some phase, prepared⟩
      [.remove .rollback, .removeArchive, .removeJournal] := by
  refine .next (.swapped archive phase prepared noted) rfl ?_
  exact cleaned_safe noted told

variable {disk : RestoreDisk α}

theorem not_unsaid_of_rollback (there : disk.rollback ≠ none) : ¬ Unsaid restored disk :=
  fun unsaid => there unsaid.2.1

theorem not_unsaid_of_own {disk : RestoreDisk α} (own : disk.instance' = some (.own original)) :
    ¬ Unsaid restored disk := by
  rintro ⟨swapped, -⟩
  simp [own] at swapped

theorem install_safe (archive : Bool) :
    RestoresSafely original restored (stagedDisk original restored archive .prepared) true
      (stagedDisk original restored archive .prepared) installSteps := by
  have told : ¬ Unsaid restored (stagedDisk original restored archive .prepared) :=
    @not_unsaid_of_own _ original _ _ rfl
  refine .next (.staged archive .extracting (some .prepared) (by simp) (by simp)) rfl ?_
  refine .next (.staged archive .prepared (some .prepared) (by simp) (by simp)) rfl ?_
  refine .next (.moved archive .prepared (some .movedOriginal) (by simp) (by simp)) rfl ?_
  refine .next (.moved archive .movedOriginal (some .movedOriginal) (by simp) (by simp)) rfl ?_
  refine .next (.swapped archive .movedOriginal (some .installed) (by simp)) rfl ?_
  exact swapped_safe (by simp) (by simp [told])

/-- So is what a start of the Relay does. -/
theorem recover_safe (midway : Midway original restored disk) (stopped : disk.prepared = none)
    (found : disk.journal = some phase) :
    RestoresSafely original restored disk (settleRestoreJournal disk phase true).2 disk
      (settleRestoreJournal disk phase true).1 := by
  cases midway with
  | staged archive onDisk prepared early noted =>
    subst stopped
    obtain rfl := Option.some.inj found
    simp only [settleRestoreJournal, settleFolders, early]
    exact staged_safe early (not_unsaid_of_own rfl) rfl
  | discarded archive onDisk early =>
    obtain rfl := Option.some.inj found
    simp only [settleRestoreJournal, settleFolders, early]
    refine .next (.discarded archive onDisk early) rfl ?_
    exact discarded_safe early (not_unsaid_of_own rfl) rfl
  | moved archive onDisk prepared early noted =>
    subst stopped
    obtain rfl := Option.some.inj found
    simp only [settleRestoreJournal, settleFolders, early]
    refine .next (.moved archive onDisk none early (by simp)) rfl ?_
    exact swapped_safe (fun _ noted => nomatch noted) (by simp [not_unsaid_of_rollback])
  | swapped archive onDisk prepared noted =>
    subst stopped
    obtain rfl := Option.some.inj found
    have planned : settleRestoreJournal (⟨some (.restored restored), some (.own original), none,
        archive, some onDisk, none⟩ : RestoreDisk α) onDisk true =
        ([.remove .rollback, .remove .staging, .removeArchive, .removeJournal], true) := by
      cases onDisk <;> rfl
    rw [planned]
    refine .next (.swapped archive onDisk none noted) rfl ?_
    refine .next (.cleaned archive onDisk none noted) rfl ?_
    exact cleaned_safe noted (by simp [not_unsaid_of_rollback])
  | cleaned archive onDisk prepared noted =>
    subst stopped
    obtain rfl := Option.some.inj found
    by_cases said : onDisk = .installed
    · subst said
      refine .next (.cleaned archive .installed none noted) rfl ?_
      refine .next (.cleaned archive .installed none noted) rfl ?_
      exact cleaned_safe noted (by simp [settleRestoreJournal, settleFolders, Unsaid])
    · -- Nothing says that the restored files are in place.
      simp only [settleRestoreJournal, settleFolders, said]
      refine .next (.cleaned archive onDisk none noted) rfl ?_
      exact cleaned_safe noted (by simp [Unsaid, said])
  | undone => cases found
  | done prepared noted => cases found

theorem settle_safe (midway : Midway original restored disk) (failed : disk.prepared = some phase) :
    RestoresSafely original restored disk (settleRestoreJournal disk phase false).2 disk
      (.giveUp :: (settleRestoreJournal disk phase false).1) := by
  cases midway with
  | staged archive onDisk prepared early noted =>
    subst failed
    have early' : phase ≠ .installed := by
      rcases noted phase rfl with rfl | rfl <;> simp
    simp only [settleRestoreJournal, settleFolders, early']
    refine .next (.staged archive onDisk (some phase) early noted) rfl ?_
    exact staged_safe early (not_unsaid_of_own rfl) rfl
  | discarded archive onDisk early => cases failed
  | moved archive onDisk prepared early noted =>
    subst failed
    obtain rfl := noted phase rfl
    refine .next (.moved archive onDisk (some .movedOriginal) early noted) rfl ?_
    refine .next (.moved archive onDisk none early (by simp)) rfl ?_
    exact staged_safe early (not_unsaid_of_rollback (by simp)) rfl
  | swapped archive onDisk prepared noted =>
    subst failed
    obtain rfl := noted phase rfl
    refine .next (.swapped archive onDisk (some .installed) noted) rfl ?_
    refine .next (.swapped archive onDisk none (by simp)) rfl ?_
    refine .next (.cleaned archive onDisk none (by simp)) rfl ?_
    exact cleaned_safe (fun _ noted => nomatch noted)
      (by simp [settleRestoreJournal, settleFolders, not_unsaid_of_rollback])
  | cleaned archive onDisk prepared noted =>
    subst failed
    obtain rfl := noted phase rfl
    refine .next (.cleaned archive onDisk (some .installed) noted) rfl ?_
    refine .next (.cleaned archive onDisk none (by simp)) rfl ?_
    refine .next (.cleaned archive onDisk none (by simp)) rfl ?_
    exact cleaned_safe (fun _ noted => nomatch noted) (by simp [settleRestoreJournal, settleFolders, Unsaid])
  | undone => cases failed
  | done prepared noted =>
    subst failed
    obtain rfl := noted phase rfl
    refine .next (.done (some .installed) noted) rfl ?_
    refine .next (.done none (by simp)) rfl ?_
    refine .next (.done none (by simp)) rfl ?_
    refine .next (.done none (by simp)) rfl ?_
    refine .next (.done none (by simp)) rfl ?_
    exact done_safe (fun _ noted => nomatch noted) (by simp [settleRestoreJournal, settleFolders, Unsaid])

/-! ## A restore is atomic -/

theorem sound_of_restores {site : Worksite (RestoreDisk α) RestoreStep Bool}
    (reached : (restoreSystem original restored).Reachable site) :
    (restoreScript α).Sound (Midway original restored) (Recovered original restored) site := by
  refine Script.sound_of_reachable ?_ ?_ ?_ reached
  · rintro site ⟨archive, rfl | rfl⟩
    · refine ⟨.staged archive .extracting (some .prepared) (by simp) (by simp), ?_⟩
      intro work under
      cases under
      exact install_safe archive
    · exact ⟨.staged archive .extracting (some .extracting) (by simp) (by simp), by simp⟩
  · intro disk order steps report midway planned
    cases order with
    | failed =>
      obtain ⟨phase, noted, settled⟩ := Option.map_eq_some_iff.mp planned
      cases settled
      exact settle_safe midway noted
    | started =>
      simp only [restoreScript, planSettling] at planned
      split at planned
      · cases planned
      · rename_i stopped
        obtain ⟨phase, found, settled⟩ := Option.map_eq_some_iff.mp planned
        cases settled
        exact recover_safe midway stopped found
  · intro disk midway
    cases midway with
    | staged archive phase prepared early noted => exact .staged archive phase none early (by simp)
    | discarded archive phase early => exact .discarded archive phase early
    | moved archive phase prepared early noted => exact .moved archive phase none early (by simp)
    | swapped archive phase prepared noted => exact .swapped archive phase none (by simp)
    | cleaned archive phase prepared noted => exact .cleaned archive phase none (by simp)
    | undone => exact .undone
    | done prepared noted => exact .done none (by simp)

/-- Whatever cuts off a restore and whatever settles it, what is left to do can be done, and leaves
    the server's folder wholly its own or wholly restored and nothing else of the restore. What it
    reports is right unless the restored files were in place with nothing to say so. -/
theorem restores_atomic {site : Worksite (RestoreDisk α) RestoreStep Bool}
    (reached : (restoreSystem original restored).Reachable site)
    {work : Work (RestoreDisk α) RestoreStep Bool} (under : site.work = some work) :
    ((restoreScript α).next site .step).isSome = true ∧
      (work.rest = [] → Settled original restored site.state ∧
        ((work.report = true ↔ site.state.instance' = some (.restored restored)) ↔
          ¬ Unsaid restored work.began)) := by
  have sound := sound_of_restores reached
  refine ⟨Script.step_of_sound sound under, fun finished => ?_⟩
  have recovered := Script.ends_of_sound sound under finished
  exact ⟨recovered.settled, recovered.reports⟩

/-- A restore about to begin. -/
def beginningSite : Worksite (RestoreDisk String) RestoreStep Bool :=
  ⟨stagedDisk "old" "new" true .prepared, some ⟨installSteps, true, stagedDisk "old" "new" true .prepared⟩⟩

theorem restores_of_runAll (events : List (WorkEvent Settling)) {site : Worksite (RestoreDisk String) RestoreStep Bool}
    (run : runAll (restoreScript String).next beginningSite events = some site) :
    (restoreSystem "old" "new").Reachable site :=
  ⟨beginningSite, events, ⟨true, .inl rfl⟩, System.run_of_runAll run⟩

/-- The Relay stops once the server's own files are moved, and the next start swaps the restored ones in. -/
def recoveredEvents : List (WorkEvent Settling) :=
  [.step, .step, .step, .crash, .plan .started, .step, .step, .step, .step]

def recoveredSite : Worksite (RestoreDisk String) RestoreStep Bool :=
  ⟨⟨some (.restored "new"), none, none, false, none, none⟩,
    some ⟨[], true, ⟨none, some (.own "old"), some (.restored "new"), true, some .movedOriginal, none⟩⟩⟩

theorem restores_atomic_recovered :
    Settled "old" "new" recoveredSite.state ∧
      (true = true ↔ recoveredSite.state.instance' = some (.restored "new")) := by
  have reached : (restoreSystem "old" "new").Reachable recoveredSite :=
    restores_of_runAll recoveredEvents (by decide)
  obtain ⟨settled, reports⟩ := (restores_atomic reached rfl).2 rfl
  exact ⟨settled, reports.mpr (not_unsaid_of_rollback (by simp))⟩

/-- A start that swaps the restored files in is itself cut off, once the server's own are removed. -/
def mistakenEvents : List (WorkEvent Settling) :=
  [.step, .step, .step, .crash, .plan .started, .step, .step, .crash, .plan .started, .step, .step, .step]

def mistakenSite : Worksite (RestoreDisk String) RestoreStep Bool :=
  ⟨⟨some (.restored "new"), none, none, false, none, none⟩,
    some ⟨[], false, ⟨some (.restored "new"), none, none, true, some .movedOriginal, none⟩⟩⟩

/-- The next start restores the server, and reports that it did not. -/
theorem restore_reported_undone :
    (restoreSystem "old" "new").Reachable mistakenSite ∧
      mistakenSite.state.instance' = some (.restored "new") ∧
      ∃ work, mistakenSite.work = some work ∧ work.rest = [] ∧ work.report = false :=
  ⟨restores_of_runAll mistakenEvents (by decide), rfl, _, rfl, rfl, rfl⟩

end Kiln.Relay
