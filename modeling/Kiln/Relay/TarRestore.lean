import Kiln.Lib.OrderedMap
import Kiln.Lib.Script

/-!
# Restoring an App's folder or a volume

`restoreTarBackup`, `finishTarRestore` and `installRestore` (`apps/relay/src/backups/tar-archives.ts:119-254`,
`:644-675`), the steps they run inside the target (`backups/tar-restore-steps.ts:50-117`), its journal
and the fence on it (`backups/tar-restore-journal.ts:137-157`), and how a journal is replaced
(`effect/atomic-file.ts`).

What a step awaits is one call on the disk. An entry that is removed or extracted is first there in
part, with all that is in it; moving one is a call of its own. A journal is written once its file is
in place and its folder flushed: where that fails its file is in place though the write failed.

The root's owner, mode and attributes are left out, and so is giving a restore up, which leaves its
target as it is.
-/

namespace Kiln.Relay
open Kiln.Lib

inductive TarRestorePhase where
  | staging
  | clearing
  | installing
  deriving DecidableEq, Repr

/-- An entry at a target's root, and all that is in it. -/
inductive TarEntry (α : Type*) where
  | whole (content : α)
  | partly
  deriving DecidableEq, Repr

abbrev TarEntries (α : Type*) := OrderedMap String (TarEntry α)

/-- `TAR_RESTORE_STAGING_PREFIX`. -/
def tarRestoreStagingPrefix : String := ".kiln-restore-"

/-- `tarRestoreStagingName`. -/
def tarRestoreStagingName (taskId : String) : String := tarRestoreStagingPrefix ++ taskId

/-- An archive's entries, as `ArchiveRules` lets them be staged: none has a staging folder's name. -/
structure TarArchive (α : Type*) where
  entries : OrderedMap String α
  allowed : ∀ entry ∈ entries.entries, entry.1.startsWith tarRestoreStagingPrefix = false

/-- What a restored target reads. -/
def TarArchive.restored {α : Type*} (archive : TarArchive α) (name : String) :
    Option (TarEntry α) :=
  (archive.entries.get name).map .whole

/-- A target of a restore: its entries but the staging folder, that folder, the restore's journal on disk, and whether
the Relay fences the target. Whether the journal was ever past staging is noted by nothing but the model. -/
structure TarTarget (α : Type*) where
  entries : TarEntries α
  staging : Option (TarEntries α) := none
  journal : Option TarRestorePhase := none
  fenced : Bool := false
  passed : Bool := false
  deriving DecidableEq

/-- One step. -/
inductive TarRestoreStep (α : Type*) where
  | reserve
  /-- A journal's new file takes the place of its old one. -/
  | replaceJournal (phase : TarRestorePhase)
  /-- Its folder is flushed, and past staging the target is fenced. -/
  | flushJournal (phase : TarRestorePhase)
  | extract (name : String) (entry : TarEntry α)
  | clear
  | install
  | discard
  /-- `rm` of an entry has begun. -/
  | rmPart (name : String)
  | rm (name : String)
  /-- An install refuses a staging folder's name. -/
  | check (name : String)
  | rename (name : String)
  | rmStaged (name : String)
  | rmdirStaging
  | removeJournal
  | lift
  deriving DecidableEq

variable {α : Type*}

/-- What a step leaves, and what it adds. Without either it throws. -/
def TarRestoreStep.run (staging : String) (target : TarTarget α) :
    TarRestoreStep α → Option (TarTarget α × List (TarRestoreStep α))
  | .reserve =>
      if target.entries.has staging || target.staging.isSome then none
      else some ({ target with staging := some .empty }, [])
  | .replaceJournal phase =>
      some ({ target with journal := some phase, passed := target.passed || phase ≠ .staging }, [])
  | .flushJournal phase =>
      some (if phase = .staging then target else { target with fenced := true }, [])
  | .extract name entry =>
      target.staging.map fun staged => ({ target with staging := some (staged.set name entry) }, [])
  | .clear =>
      -- Without a whole staging folder the old files stay.
      target.staging.map fun _ =>
        (target, target.entries.entries.flatMap fun entry => [.rmPart entry.1, .rm entry.1])
  | .install =>
      match target.staging with
      | none => some (target, [])
      | some staged => some (target, staged.entries.flatMap (fun entry =>
            [.check entry.1, .rmPart entry.1, .rm entry.1, .rename entry.1]) ++ [.rmdirStaging])
  | .discard =>
      match target.staging with
      | none => some (target, [])
      | some staged =>
          some (target, staged.entries.map (fun entry => .rmStaged entry.1) ++ [.rmdirStaging])
  | .rmPart name =>
      some (if target.entries.has name then
        { target with entries := target.entries.set name .partly } else target, [])
  | .rm name => some ({ target with entries := target.entries.delete name }, [])
  | .check name =>
      if name.startsWith tarRestoreStagingPrefix then none else some (target, [])
  | .rename name =>
      target.staging.bind fun staged => (staged.get name).map fun entry =>
        ({ target with entries := target.entries.set name entry, staging := some (staged.delete name) }, [])
  | .rmStaged name =>
      target.staging.map fun staged => ({ target with staging := some (staged.delete name) }, [])
  | .rmdirStaging =>
      target.staging.bind fun staged =>
        if staged.entries.isEmpty then some ({ target with staging := none }, []) else none
  | .removeJournal => some ({ target with journal := none }, [])
  | .lift => some ({ target with fenced := false }, [])

/-- `writeTarRestoreJournal`, and fencing what it says is being swapped. -/
def writeTarRestoreJournal (phase : TarRestorePhase) : List (TarRestoreStep α) :=
  [.replaceJournal phase, .flushJournal phase]

/-- `installRestore`, from a journal's phase. -/
def installRestore (phase : TarRestorePhase) : List (TarRestoreStep α) :=
  (if phase ≠ .installing then writeTarRestoreJournal .clearing ++ [.clear] else []) ++
    writeTarRestoreJournal .installing ++ [.install, .removeJournal, .lift]

/-- `restoreTarBackup`, once its archive is validated. -/
def restoreTarBackup (archive : TarArchive α) : List (TarRestoreStep α) :=
  .reserve :: writeTarRestoreJournal .staging ++ archive.entries.entries.flatMap (fun entry =>
      [.extract entry.1 .partly, .extract entry.1 (.whole entry.2)]) ++
    installRestore .staging

/-- `abandonTarRestore`. -/
def abandonTarRestore : List (TarRestoreStep α) :=
  [.discard, .removeJournal, .lift]

/-- `finishTarRestore`, and what it answers. -/
def finishTarRestore (phase : TarRestorePhase) : List (TarRestoreStep α) × Bool :=
  if phase = .staging then (abandonTarRestore, false) else (installRestore phase, true)

/-- What a journal that was left has done about it. -/
inductive TarRestoreOrder where
  /-- Staging failed, or the restore was cancelled before its install. -/
  | cleanUp
  /-- `#settleTarRestore` (`backups.ts:1418-1488`). -/
  | finish
  deriving DecidableEq, Repr

def TarRestoreOrder.plan (target : TarTarget α) : TarRestoreOrder → Option (List (TarRestoreStep α) × Bool)
  | .cleanUp =>
      if target.journal = some .staging then some ([.discard, .removeJournal], false) else none
  | .finish => target.journal.map finishTarRestore

/-- The journal says that a target is being swapped. -/
def TarTarget.swapping (target : TarTarget α) : Bool :=
  match target.journal with
  | none | some .staging => false
  | some _ => true

/-- A restore and what settles it. A Relay that starts fences what its journals say is being swapped
(`TarRestoreFences.load`). -/
def tarRestoreScript (α : Type*) (staging : String) : Script (TarTarget α) (TarRestoreStep α) Bool TarRestoreOrder where
  step target step := step.run staging target
  plan := TarRestoreOrder.plan
  restart target := { target with fenced := target.swapping }

/-- A restore begins, or is refused for what has its staging folder's name. -/
def BeginsTarRestore (staging : String) (old : TarEntries α) (archive : TarArchive α)
    (site : Worksite (TarTarget α) (TarRestoreStep α) Bool) : Prop :=
  site.state = { entries := old } ∧ site.work = if old.has staging then none
      else some ⟨restoreTarBackup archive, true, { entries := old }⟩

/-- Whether a failure comes once a journal is in place that swaps a target, before its folder was flushed and the target
fenced. -/
def FailsUnfenced (site : Worksite (TarTarget α) (TarRestoreStep α) Bool) : Bool :=
  match site.work with
  | some ⟨.flushJournal phase :: _, _, _⟩ => phase ≠ .staging && !site.state.fenced
  | _ => false

/-- Nothing fails there. -/
def FailsFenced (site : Worksite (TarTarget α) (TarRestoreStep α) Bool) : WorkEvent TarRestoreOrder → Prop
  | .fail => FailsUnfenced site = false
  | _ => True

instance (site : Worksite (TarTarget α) (TarRestoreStep α) Bool)
    (event : WorkEvent TarRestoreOrder) : Decidable (FailsFenced site event) := by
  cases event <;> unfold FailsFenced <;> infer_instance

/-- A restore and any recoveries of it, all cut off anywhere. -/
def tarRestoreSystem (staging : String) (old : TarEntries α) (archive : TarArchive α) :
    System (Worksite (TarTarget α) (TarRestoreStep α) Bool) (WorkEvent TarRestoreOrder) :=
  (tarRestoreScript α staging).system (BeginsTarRestore staging old archive)

end Kiln.Relay
