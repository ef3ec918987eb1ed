import Kiln.Relay.TarRestore

/-!
# A tar restore is safe to cut off

Wherever a restore or a recovery of it is cut off, `TarMidway` says what is found: the old entries
alone, or with a staging folder beside them; once the journal is past staging, a whole staging folder
or one whose entries are each still there or moved up. From each of these the work that is planned
leads to the end its journal's phase says, shown step by step from its end.
-/

namespace Kiln.Relay
open Kiln.Lib OrderedMap List

variable {α : Type*} {staging : String} {old : TarEntries α} {archive : TarArchive α}

/-- A folder holds what is restored. -/
def Restores (archive : TarArchive α) (entries : TarEntries α) : Prop :=
  ∀ name, entries.get name = archive.restored name

/-- What is restored is in the staging folder or, once moved, at the root, and nothing else is. -/
def MovesUp (archive : TarArchive α) (entries staged : TarEntries α) : Prop :=
  ∀ name, staged.get name = archive.restored name ∧ archive.restored name ≠ none ∨
    staged.get name = none ∧ entries.get name = archive.restored name

/-- What may be found of a target. -/
inductive TarMidway (old : TarEntries α) (archive : TarArchive α) : TarTarget α → Prop
  | untouched : TarMidway old archive ⟨old, none, none, false, false⟩
  /-- Its folder is reserved, and its journal not written. -/
  | reserved : TarMidway old archive ⟨old, some .empty, none, false, false⟩
  | staging (staging : Option (TarEntries α)) : TarMidway old archive ⟨old, staging, some .staging, false, false⟩
  | clearing (entries staged : TarEntries α) (fenced : Bool) (whole : Restores archive staged) :
      TarMidway old archive ⟨entries, some staged, some .clearing, fenced, true⟩
  | installing (entries staged : TarEntries α) (fenced : Bool) (moves : MovesUp archive entries staged) :
      TarMidway old archive ⟨entries, some staged, some .installing, fenced, true⟩
  | moved (entries : TarEntries α) (fenced : Bool) (whole : Restores archive entries) :
      TarMidway old archive ⟨entries, none, some .installing, fenced, true⟩
  | installed (entries : TarEntries α) (fenced : Bool) (whole : Restores archive entries) :
      TarMidway old archive ⟨entries, none, none, fenced, true⟩

/-- Work on a restore that ran to its end leaves a target with the old entries where it began from a journal still
staging, and with the restored ones elsewhere, and nothing else of the restore. -/
structure TarEnds (old : TarEntries α) (archive : TarArchive α) (began target : TarTarget α) :
    Prop where
  old' : began.journal = some .staging → target.entries = old
  restored : began.journal ≠ some .staging → Restores archive target.entries
  noStaging : target.staging = none
  noJournal : target.journal = none
  notFenced : target.fenced = false

/-- The journal is in place, and its write still under way. -/
def Writing (rest : List (TarRestoreStep α)) : Prop :=
  ∃ phase later, rest = .flushJournal phase :: later ∧ phase ≠ .staging

/-- What holds of a target while there is nothing done about it. -/
structure TarIdle (old : TarEntries α) (archive : TarArchive α) (target : TarTarget α) : Prop where
  midway : TarMidway old archive target
  fenced : target.swapping = true → target.fenced = true

/-- What holds of a target and the steps that are left. -/
structure TarHeld (old : TarEntries α) (archive : TarArchive α) (began : TarTarget α)
    (answers : Bool) (target : TarTarget α) (rest : List (TarRestoreStep α)) : Prop where
  midway : TarMidway old archive target
  fenced : target.swapping = true → target.fenced = true ∨ Writing rest
  lifts : ∀ later, rest = .lift :: later → target.journal = none
  ends : rest = [] → TarEnds old archive began target ∧ (answers = true ↔ began.journal ≠ some .staging)

variable {began : TarTarget α} {answers : Bool}

/-- What is left can be done, and keeps all that. -/
abbrev TarAlong (staging : String) (old : TarEntries α) (archive : TarArchive α)
    (began : TarTarget α) (answers : Bool) : TarTarget α → List (TarRestoreStep α) → Prop :=
  (tarRestoreScript α staging).Along (TarHeld old archive began answers)

variable {target : TarTarget α}

/-- What there is to show before a step that isn't the last of a restore. -/
theorem TarHeld.before {step : TarRestoreStep α} {rest : List (TarRestoreStep α)}
    (midway : TarMidway old archive target) (fenced : target.swapping = true → target.fenced = true)
    (notLift : step ≠ .lift) :
    TarHeld old archive began answers target (step :: rest) :=
  ⟨midway, fun swapping => .inl (fenced swapping),
    fun _ same => absurd (List.cons.inj same).1 notLift, fun same => nomatch same⟩

/-! ## From the end of a restore to its beginning -/

variable {name : String}

theorem run_check (staging : String) (allowed : name.startsWith tarRestoreStagingPrefix = false) :
    (TarRestoreStep.check name).run staging target = some (target, []) := by
  rw [TarRestoreStep.run, if_neg (by simp only [allowed, Bool.false_eq_true, not_false_eq_true])]

/-- An entry partly removed. -/
def partlyRemoved (entries : TarEntries α) (name : String) : TarEntries α :=
  if entries.has name then entries.set name .partly else entries

theorem run_rmPart (staging : String) : (TarRestoreStep.rmPart name).run staging target =
      some ({ target with entries := partlyRemoved target.entries name }, []) := by
  rw [TarRestoreStep.run, partlyRemoved]
  split <;> rfl

variable {entries : TarEntries α}

theorem get_partlyRemoved {n : String} (other : n ≠ name) : (partlyRemoved entries name).get n = entries.get n := by
  unfold partlyRemoved
  split
  · rw [get_set, if_neg (Ne.symm other)]
  · rfl

theorem run_reserve (staging : String) (free : old.has staging = false) :
    TarRestoreStep.reserve.run staging ⟨old, none, none, false, false⟩ =
      some (⟨old, some .empty, none, false, false⟩, []) := by
  simp [TarRestoreStep.run, free]

variable {staged : TarEntries α}

theorem run_rename (staging : String) {entry : TarEntry α} {journal : Option TarRestorePhase}
    {fenced passed : Bool} (is : staged.get name = some entry) :
    (TarRestoreStep.rename name).run staging ⟨entries, some staged, journal, fenced, passed⟩ =
      some (⟨entries.set name entry, some (staged.delete name), journal, fenced, passed⟩, []) := by
  rw [TarRestoreStep.run, Option.bind_some, is, Option.map_some]

/-- What a restore or a recovery that installs began from. -/
abbrev Installs (began : TarTarget α) (answers : Bool) : Prop :=
  began.journal ≠ some .staging ∧ answers = true

theorem lift_along (installs : Installs began answers) (whole : Restores archive entries) (fenced : Bool) :
    TarAlong staging old archive began answers ⟨entries, none, none, fenced, true⟩ [.lift] := by
  have over' : TarAlong staging old archive began answers ⟨entries, none, none, false, true⟩ [] := by
    refine .done ⟨.installed entries false whole, (nomatch ·), (fun _ same => nomatch same),
      fun _ => ⟨⟨fun was => absurd was installs.1, fun _ => whole, rfl, rfl, rfl⟩, ?_⟩⟩
    simp [installs.1, installs.2]
  refine .next ⟨.installed entries fenced whole, (nomatch ·), fun _ _ => rfl, (nomatch ·)⟩ rfl ?_
  exact over'

theorem moved_along (installs : Installs began answers) (whole : Restores archive entries) :
    TarAlong staging old archive began answers ⟨entries, none, some .installing, true, true⟩
      [.removeJournal, .lift] := by
  refine .next (.before (.moved entries true whole) (fun _ => rfl) (by simp)) rfl ?_
  exact lift_along installs whole true

theorem movesUp_elsewhere {entries' : TarEntries α} (moves : MovesUp archive entries staged)
    (there : staged.get name ≠ none) (same : ∀ n, n ≠ name → entries'.get n = entries.get n) :
    MovesUp archive entries' staged := by
  intro n
  rcases moves n with still | ⟨gone, is⟩
  · exact .inl still
  · refine .inr ⟨gone, ?_⟩
    rw [same n fun equal => there (equal ▸ gone)]
    exact is

theorem movesUp_rename {entry : TarEntry α} (moves : MovesUp archive entries staged)
    (there : staged.get name = some entry) :
    MovesUp archive (entries.set name entry) (staged.delete name) := by
  intro n
  by_cases here : name = n
  · subst here
    rcases moves name with ⟨same, -⟩ | ⟨gone, -⟩
    · exact .inr ⟨by simp, by simpa using there.symm.trans same⟩
    · exact nomatch there.symm.trans gone
  · simpa [here] using moves n

theorem install_along (installs : Installs began answers) (names : List String)
    (distinct : names.Nodup) : ∀ entries staged : TarEntries α,
    MovesUp archive entries staged → (∀ name, staged.get name ≠ none ↔ name ∈ names) →
    TarAlong staging old archive began answers ⟨entries, some staged, some .installing, true, true⟩
      ((names.flatMap fun name => [.check name, .rmPart name, .rm name, .rename name]) ++
        [.rmdirStaging, .removeJournal, .lift]) := by
  induction names with
  | nil =>
    intro entries staged moves listed
    have gone : ∀ name, staged.get name = none := fun name =>
      not_not.mp fun there => nomatch (listed name).mp there
    have whole : Restores archive entries := by
      intro name
      rcases moves name with ⟨same, there⟩ | ⟨-, same⟩
      · exact absurd ((gone name).symm.trans same).symm there
      · exact same
    obtain rfl := eq_empty gone
    refine .next (.before (.installing entries _ true moves) (fun _ => rfl) (by simp)) rfl ?_
    exact moved_along installs whole
  | cons name names ih =>
    intro entries staged moves listed
    rw [nodup_cons] at distinct
    have there := (listed name).mpr mem_cons_self
    obtain ⟨entry, is⟩ := Option.ne_none_iff_exists'.mp there
    have restored : archive.restored name ≠ none := by
      rcases moves name with ⟨-, restored⟩ | ⟨gone, -⟩
      · exact restored
      · exact absurd gone there
    have allowed : name.startsWith tarRestoreStagingPrefix = false := by
      obtain ⟨content, held⟩ := Option.ne_none_iff_exists'.mp
        fun absent => restored (congrArg (Option.map TarEntry.whole) absent)
      exact archive.allowed _ (get_eq_some.mp held)
    have torn : MovesUp archive (partlyRemoved entries name) staged :=
      movesUp_elsewhere moves there fun n other => get_partlyRemoved other
    have cleared : MovesUp archive ((partlyRemoved entries name).delete name) staged :=
      movesUp_elsewhere torn there fun n other => by
        rw [get_delete, if_neg (Ne.symm other)]
    refine .next (.before (.installing entries _ true moves) (fun _ => rfl) (by simp)) (run_check staging allowed) ?_
    refine .next (.before (.installing entries _ true moves) (fun _ => rfl) (by simp)) (run_rmPart staging) ?_
    refine .next (.before (.installing _ _ true torn) (fun _ => rfl) (by simp)) rfl ?_
    refine .next (.before (.installing _ _ true cleared) (fun _ => rfl) (by simp)) (run_rename staging is) ?_
    refine ih distinct.2 _ _ (movesUp_rename cleared is) fun n => ?_
    rw [get_delete]
    by_cases here : name = n
    · subst here
      simpa using distinct.1
    · rw [if_neg here, listed n, mem_cons]
      exact ⟨fun is => is.resolve_left (Ne.symm here), .inr⟩

/-- `install`, whatever of it is done. -/
theorem installStep_along (installs : Installs began answers) (moves : MovesUp archive entries staged) :
    TarAlong staging old archive began answers
      ⟨entries, some staged, some .installing, true, true⟩ [.install, .removeJournal, .lift] := by
  refine .step (.before (.installing entries staged true moves) (fun _ => rfl) (by simp)) rfl ?_
  have along := @install_along α staging old archive began answers installs
    (staged.entries.map Prod.fst) staged.nodup entries staged moves fun name => by
      rw [← has_iff, has, Option.isSome_iff_ne_none]
  rw [flatMap_map] at along
  rw [append_assoc]
  exact along

theorem installing_along (installs : Installs began answers) {phase : TarRestorePhase}
    (moves : MovesUp archive entries staged)
    (midway : TarMidway old archive ⟨entries, some staged, some phase, true, true⟩) :
    TarAlong staging old archive began answers ⟨entries, some staged, some phase, true, true⟩
      (writeTarRestoreJournal .installing ++ [.install, .removeJournal, .lift]) := by
  refine .next (.before midway (fun _ => rfl) (by simp)) rfl ?_
  refine .next (.before (.installing entries staged true moves) (fun _ => rfl) (by simp)) rfl ?_
  exact installStep_along installs moves

theorem clear_along (installs : Installs began answers) {staged : TarEntries α}
    (whole : Restores archive staged) (names : List String) : ∀ entries : TarEntries α,
    (∀ name, entries.get name ≠ none → name ∈ names) →
    TarAlong staging old archive began answers ⟨entries, some staged, some .clearing, true, true⟩
      ((names.flatMap fun name => [.rmPart name, .rm name]) ++
        (writeTarRestoreJournal .installing ++ [.install, .removeJournal, .lift])) := by
  induction names with
  | nil =>
    intro entries listed
    have gone : ∀ name, entries.get name = none := fun name =>
      not_not.mp fun there => nomatch listed name there
    refine installing_along installs (fun name => ?_) (.clearing entries staged true whole)
    by_cases restored : archive.restored name = none
    · exact .inr ⟨(whole name).trans restored, (gone name).trans restored.symm⟩
    · exact .inl ⟨whole name, restored⟩
  | cons name names ih =>
    intro entries listed
    refine .next (.before (.clearing entries staged true whole) (fun _ => rfl) (by simp)) (run_rmPart staging) ?_
    refine .next (.before (.clearing _ staged true whole) (fun _ => rfl) (by simp)) rfl ?_
    refine ih _ fun n there => ?_
    rw [get_delete] at there
    by_cases here : name = n
    · simp [here] at there
    · rw [if_neg here, get_partlyRemoved (Ne.symm here)] at there
      exact (mem_cons.mp (listed n there)).resolve_left (Ne.symm here)

/-- The journal says that the target is swapped, and all that follows is done. -/
theorem clearing_along (installs : Installs began answers) (whole : Restores archive staged)
    {journal : Option TarRestorePhase} {fenced passed : Bool}
    (midway : TarMidway old archive ⟨entries, some staged, journal, fenced, passed⟩)
    (swapping : journal = some .staging ∨ fenced = true) :
    TarAlong staging old archive began answers ⟨entries, some staged, journal, fenced, passed⟩
      (writeTarRestoreJournal .clearing ++ .clear ::
        (writeTarRestoreJournal .installing ++ [.install, .removeJournal, .lift])) := by
  refine .next (.before midway ?_ (by simp)) rfl ?_
  · rintro isSwapping
    rcases swapping with rfl | fenced
    · cases isSwapping
    · exact fenced
  have passes : (passed || TarRestorePhase.clearing ≠ .staging) = true := by simp
  have onDisk : TarMidway old archive ⟨entries, some staged, some .clearing, fenced, true⟩ :=
    .clearing entries staged fenced whole
  rw [show (⟨entries, some staged, some .clearing, fenced,
    passed || TarRestorePhase.clearing ≠ .staging⟩ : TarTarget α) =
      ⟨entries, some staged, some .clearing, fenced, true⟩ from by rw [passes]]
  refine .next ⟨onDisk, fun _ => .inr ⟨.clearing, _, rfl, by simp⟩, by simp [writeTarRestoreJournal],
    (nomatch ·)⟩ rfl ?_
  refine .step (.before (.clearing entries staged true whole) (fun _ => rfl) (by simp)) rfl ?_
  have along := @clear_along α staging old archive began answers installs staged whole
    (entries.entries.map Prod.fst) entries fun name there => by
      rw [← has_iff, has, Option.isSome_iff_ne_none]
      exact there
  rw [flatMap_map] at along
  exact along

/-- What a recovery that gives a restore up began from. -/
abbrev GivesUp (began : TarTarget α) (answers : Bool) : Prop :=
  began.journal = some .staging ∧ answers = false

theorem untouched_ends (gives : GivesUp began answers) :
    TarHeld old archive began answers ⟨old, none, none, false, false⟩ [] := by
  refine ⟨.untouched, (nomatch ·), (fun _ same => nomatch same),
    fun _ => ⟨⟨fun _ => rfl, fun other => absurd gives.1 other, rfl, rfl, rfl⟩, ?_⟩⟩
  simp [gives.1, gives.2]

/-- The staging folder is gone, and its journal goes; a recovery also lifts the fence. -/
theorem discarded_along (gives : GivesUp began answers) {lifting : List (TarRestoreStep α)}
    (lifts : lifting = [] ∨ lifting = [.lift]) :
    TarAlong staging old archive began answers ⟨old, none, some .staging, false, false⟩
      (.removeJournal :: lifting) := by
  refine .next (.before (.staging none) (nomatch ·) (by simp)) rfl ?_
  rcases lifts with rfl | rfl
  · exact .done (untouched_ends gives)
  · refine .next ⟨.untouched, (nomatch ·), (fun _ _ => rfl), (nomatch ·)⟩ rfl ?_
    exact .done (untouched_ends gives)

theorem rmStaged_along (gives : GivesUp began answers) {lifting : List (TarRestoreStep α)}
    (lifts : lifting = [] ∨ lifting = [.lift]) (names : List String) : ∀ staged : TarEntries α,
    (∀ name, staged.get name ≠ none → name ∈ names) →
    TarAlong staging old archive began answers ⟨old, some staged, some .staging, false, false⟩
      ((names.map .rmStaged) ++ .rmdirStaging :: .removeJournal :: lifting) := by
  induction names with
  | nil =>
    intro staged listed
    obtain rfl := eq_empty fun name => not_not.mp fun there => nomatch listed name there
    refine .next (.before (.staging _) (nomatch ·) (by simp)) rfl ?_
    exact discarded_along gives lifts
  | cons name names ih =>
    intro staged listed
    refine .next (.before (.staging _) (nomatch ·) (by simp)) rfl ?_
    refine ih _ fun n there => ?_
    rw [get_delete] at there
    by_cases here : name = n
    · simp [here] at there
    · rw [if_neg here] at there
      exact (mem_cons.mp (listed n there)).resolve_left (Ne.symm here)

/-- `discard`, whatever of it is done. -/
theorem discard_along (gives : GivesUp began answers) {lifting : List (TarRestoreStep α)}
    (lifts : lifting = [] ∨ lifting = [.lift]) (reserved : Option (TarEntries α)) :
    TarAlong staging old archive began answers ⟨old, reserved, some .staging, false, false⟩
      (.discard :: .removeJournal :: lifting) := by
  cases reserved with
  | none =>
    refine .next (.before (.staging none) (nomatch ·) (by simp)) rfl ?_
    exact discarded_along gives lifts
  | some staged =>
    refine .step (.before (.staging _) (nomatch ·) (by simp)) rfl ?_
    have along := @rmStaged_along α staging old archive began answers gives lifting lifts
      (staged.entries.map Prod.fst) staged fun name there => by
        rw [← has_iff, has, Option.isSome_iff_ne_none]
        exact there
    rw [map_map] at along
    rw [append_assoc]
    exact along

theorem extract_along (installs : Installs began answers) (entries : List (String × α)) :
    ∀ staged : TarEntries α, (∀ entry ∈ entries, archive.entries.get entry.1 = some entry.2) →
    (∀ name, name ∉ entries.map Prod.fst → staged.get name = archive.restored name) →
    TarAlong staging old archive began answers ⟨old, some staged, some .staging, false, false⟩
      ((entries.flatMap fun entry => [.extract entry.1 .partly, .extract entry.1 (.whole entry.2)])
        ++ installRestore .staging) := by
  induction entries with
  | nil =>
    intro staged _ restored
    have whole : Restores archive staged := fun name => restored name (by simp)
    exact clearing_along installs whole (.staging _) (.inl rfl)
  | cons entry entries ih =>
    intro staged listed restored
    refine .next (.before (.staging _) (nomatch ·) (by simp)) rfl ?_
    refine .next (.before (.staging _) (nomatch ·) (by simp)) rfl ?_
    refine ih _ (fun later there => listed later (mem_cons_of_mem _ there)) fun name later => ?_
    rw [get_set, get_set]
    by_cases here : entry.1 = name
    · subst here
      rw [if_pos rfl, TarArchive.restored, listed entry mem_cons_self]
      rfl
    · rw [if_neg here, if_neg here]
      refine restored name fun there => ?_
      rw [map_cons, mem_cons] at there
      exact there.elim (Ne.symm here) later

theorem restore_along (free : old.has staging = false) :
    TarAlong staging old archive { entries := old } true { entries := old } (restoreTarBackup archive) := by
  have installs : Installs ({ entries := old } : TarTarget α) true := ⟨by simp, rfl⟩
  refine .next (.before .untouched (nomatch ·) (by simp)) (run_reserve staging free) ?_
  refine .next (.before .reserved (nomatch ·) (by simp)) rfl ?_
  refine .next (.before (.staging _) (nomatch ·) (by simp)) rfl ?_
  refine extract_along installs archive.entries.entries .empty ?_ ?_
  · exact fun entry there => get_eq_some.mpr there
  · intro name absent
    rw [← has_iff, has, Bool.not_eq_true, Option.isSome_eq_false_iff, Option.isNone_iff_eq_none] at absent
    rw [TarArchive.restored, absent]
    rfl

/-- And what settles one that was cut off. -/
theorem plan_along (idle : TarIdle old archive target) {order : TarRestoreOrder}
    {steps : List (TarRestoreStep α)} {answers : Bool}
    (planned : order.plan target = some (steps, answers)) :
    TarAlong staging old archive target answers target steps := by
  cases order with
  | cleanUp =>
    simp only [TarRestoreOrder.plan] at planned
    split at planned
    · rename_i found
      cases planned
      have gives : GivesUp target false := ⟨found, rfl⟩
      cases idle.midway with
      | staging reserved => exact discard_along gives (.inl rfl) reserved
      | untouched => cases found
      | reserved => cases found
      | clearing => cases found
      | installing => cases found
      | moved => cases found
      | installed => cases found
    · cases planned
  | finish =>
    obtain ⟨phase, found, settled⟩ := Option.map_eq_some_iff.mp planned
    obtain ⟨rfl, rfl⟩ := Prod.mk.inj settled
    cases idle.midway with
    | staging reserved =>
      cases found
      exact discard_along ⟨rfl, rfl⟩ (.inr rfl) reserved
    | clearing entries staged fenced whole =>
      cases found
      obtain rfl : fenced = true := idle.fenced rfl
      exact clearing_along ⟨by simp, rfl⟩ whole idle.midway (.inr rfl)
    | installing entries staged fenced moves =>
      cases found
      obtain rfl : fenced = true := idle.fenced rfl
      exact installing_along ⟨by simp, rfl⟩ moves idle.midway
    | moved entries fenced whole =>
      cases found
      obtain rfl : fenced = true := idle.fenced rfl
      refine .next (.before (.moved entries true whole) (fun _ => rfl) (by simp)) rfl ?_
      refine .next (.before (.moved entries true whole) (fun _ => rfl) (by simp)) rfl ?_
      refine .next (.before (.moved entries true whole) (fun _ => rfl) (by simp)) rfl ?_
      exact moved_along ⟨by simp, rfl⟩ whole
    | untouched => cases found
    | reserved => cases found
    | installed => cases found

/-! ## A restore is safe -/

theorem TarMidway.restarted (midway : TarMidway old archive target) :
    TarIdle old archive { target with fenced := target.swapping } := by
  cases midway with
  | untouched => exact ⟨.untouched, (nomatch ·)⟩
  | reserved => exact ⟨.reserved, (nomatch ·)⟩
  | staging reserved => exact ⟨.staging reserved, (nomatch ·)⟩
  | clearing entries staged fenced whole =>
    exact ⟨.clearing entries staged true whole, fun _ => rfl⟩
  | installing entries staged fenced moves =>
    exact ⟨.installing entries staged true moves, fun _ => rfl⟩
  | moved entries fenced whole => exact ⟨.moved entries true whole, fun _ => rfl⟩
  | installed entries fenced whole => exact ⟨.installed entries false whole, (nomatch ·)⟩

theorem tarRestore_upheld {site : Worksite (TarTarget α) (TarRestoreStep α) Bool}
    (reached : ((tarRestoreSystem staging old archive).restrict FailsFenced).Reachable site) :
    (tarRestoreScript α staging).Upheld (TarIdle old archive) (TarHeld old archive) site := by
  refine Script.upheld_of_reachable ?_ ?_ ?_ ?_ ?_ ?_ reached
  · rintro ⟨state, work⟩ ⟨rfl, under⟩
    dsimp only at under
    split at under
    · subst under
      exact ⟨fun _ => ⟨.untouched, (nomatch ·)⟩, fun _ there => nomatch there⟩
    · rename_i free
      subst under
      refine ⟨(nomatch ·), fun work there => ?_⟩
      cases there
      exact restore_along (by simpa using free)
  · intro target order steps answers idle planned
    exact plan_along idle planned
  · intro began answers target held
    refine ⟨held.midway, fun swapping => ?_⟩
    have gone := (held.ends rfl).1.noJournal
    rw [TarTarget.swapping, gone] at swapping
    cases swapping
  · intro site work under held together
    refine ⟨held.midway, fun swapping => ?_⟩
    rcases held.fenced swapping with fenced | ⟨phase, later, writing, past⟩
    · exact fenced
    · obtain ⟨rest, report, began⟩ := work
      dsimp only at writing
      subst writing
      have early : FailsUnfenced site = false := together
      simpa [FailsUnfenced, under, past] using early
  · exact fun target idle => idle.midway.restarted
  · exact fun began answers target steps held => held.midway.restarted

theorem lifts_of_run {step : TarRestoreStep α} {after : TarTarget α}
    {more : List (TarRestoreStep α)} (made : step.run staging target = some (after, more))
    (fenced : target.fenced = true) (lifted : after.fenced = false) : step = .lift := by
  have kept : step ≠ .lift → after.fenced = true := by
    intro other
    cases step <;> simp only [TarRestoreStep.run] at made
    case lift => exact absurd rfl other
    all_goals grind [Option.map_eq_some_iff, Option.bind_eq_some_iff]
  by_contra other
  rw [kept other] at lifted
  cases lifted

/-- What holds of a target and the work on it, wherever a restore and its recoveries are cut off. -/
structure TarSafe (staging : String) (old : TarEntries α) (archive : TarArchive α)
    (site : Worksite (TarTarget α) (TarRestoreStep α) Bool) : Prop where
  /-- Until its journal is past staging, a target has its old entries. -/
  keeps : site.state.passed = false → site.state.entries = old
  /-- Once there is no journal and no work under way, it has those and at most an empty staging folder beside them, or
  it has the restored entries and no such folder. -/
  settled : site.work = none → site.state.journal = none → (site.state.passed = false ∧
      (site.state.staging = none ∨ site.state.staging = some .empty)) ∨
    (site.state.passed = true ∧ Restores archive site.state.entries ∧ site.state.staging = none)
  /-- What is left to do can be done. -/
  goesOn : ∀ work, site.work = some work → ((tarRestoreScript α staging).next site .step).isSome = true
  /-- Work that ran to its end reached the end its journal says, and answers so. -/
  ends : ∀ work, site.work = some work → work.rest = [] → TarEnds old archive work.began site.state ∧
      (work.report = true ↔ work.began.journal ≠ some .staging)
  /-- A target that is being swapped is fenced, but while its journal is still being written. -/
  fenced : site.state.swapping = true → site.state.fenced = true ∨ ∃ work, site.work = some work ∧ Writing work.rest

theorem safe_of_upheld {site : Worksite (TarTarget α) (TarRestoreStep α) Bool}
    (upheld : (tarRestoreScript α staging).Upheld (TarIdle old archive) (TarHeld old archive) site) :
    TarSafe staging old archive site := by
  have midway : TarMidway old archive site.state := by
    cases under : site.work with
    | none => exact (upheld.rests under).midway
    | some work => exact (upheld.works work under).holds.midway
  refine ⟨fun early => ?_, fun free gone => ?_, fun work under => ?_, fun work under over' => ?_, fun swapping => ?_⟩
  · obtain ⟨state, work⟩ := site
    cases midway with
    | untouched => rfl
    | reserved => rfl
    | staging reserved => rfl
    | clearing => cases early
    | installing => cases early
    | moved => cases early
    | installed => cases early
  · obtain ⟨state, work⟩ := site
    cases midway with
    | untouched => exact .inl ⟨rfl, .inl rfl⟩
    | reserved => exact .inl ⟨rfl, .inr rfl⟩
    | installed entries fenced whole => exact .inr ⟨rfl, whole, rfl⟩
    | staging => cases gone
    | clearing => cases gone
    | installing => cases gone
    | moved => cases gone
  · exact Script.step_of_upheld upheld under
  · exact (upheld.works work under).holds.ends over'
  · cases under : site.work with
    | none => exact .inl ((upheld.rests under).fenced swapping)
    | some work =>
      rcases (upheld.works work under).holds.fenced swapping with fenced | writing
      · exact .inl fenced
      · exact .inr ⟨work, rfl, writing⟩

/-- However a restore and its recoveries are cut off, unless a write of the journal fails once its file
    is in place: the target is safe, and its fence is lifted only once the journal is gone. -/
theorem tarRestore_safe {site site' : Worksite (TarTarget α) (TarRestoreStep α) Bool}
    {event : WorkEvent TarRestoreOrder}
    (reached : ((tarRestoreSystem staging old archive).restrict FailsFenced).Reachable site)
    (step : (tarRestoreSystem staging old archive).step site event site') :
    TarSafe staging old archive site ∧
      (site.state.fenced = true → site'.state.fenced = false → site'.state.journal = none) := by
  have upheld := tarRestore_upheld reached
  refine ⟨safe_of_upheld upheld, fun fenced lifted => ?_⟩
  have differ : site'.state ≠ site.state := fun same => by
    rw [same, fenced] at lifted
    cases lifted
  cases event with
  | plan order =>
    simp only [tarRestoreSystem, Script.system, System.ofFunction_step, Script.next] at step
    split at step
    · cases step
    · obtain ⟨planned, -, rfl⟩ := Option.map_eq_some_iff.mp step
      exact absurd rfl differ
  | step =>
    simp only [tarRestoreSystem, Script.system, System.ofFunction_step, Script.next] at step
    split at step
    · cases step
    rename_i work under
    split at step
    · cases step
      exact absurd rfl differ
    rename_i first rest left
    obtain ⟨⟨after, more⟩, made, rfl⟩ := Option.map_eq_some_iff.mp step
    obtain rfl := lifts_of_run made fenced lifted
    have gone := (upheld.works work under).holds.lifts rest left
    cases made
    exact gone
  | fail =>
    obtain ⟨work, -, rfl⟩ := Option.map_eq_some_iff.mp step
    exact absurd rfl differ
  | crash =>
    cases step
    have midway : TarMidway old archive site.state := by
      cases under : site.work with
      | none => exact (upheld.rests under).midway
      | some work => exact (upheld.works work under).holds.midway
    have swapping : site.state.swapping = false := lifted
    obtain ⟨state, work⟩ := site
    cases midway with
    | untouched => rfl
    | reserved => rfl
    | staging => cases fenced
    | clearing => cases swapping
    | installing => cases swapping
    | moved => cases swapping
    | installed => rfl

/-- A volume with one folder, which its backup also has. -/
def oldWorld : TarEntries String := empty.set "world" (.whole "old")

def worldArchive : TarArchive String where
  entries := empty.set "world" "new"
  allowed := by
    intro entry listed
    obtain rfl : entry = ("world", "new") := mem_singleton.mp listed
    decide +kernel

def worldStaging : String := tarRestoreStagingName "5e2b1c9d-04f7-4a38-865e-2b1c9d04f7a3"

def worldRestore : Worksite (TarTarget String) (TarRestoreStep String) Bool :=
  ⟨{ entries := oldWorld }, some ⟨restoreTarBackup worldArchive, true, { entries := oldWorld }⟩⟩

theorem worldRestore_begins : BeginsTarRestore worldStaging oldWorld worldArchive worldRestore :=
  ⟨rfl, by decide +kernel⟩

/-- The Relay stops as it clears the old entries, and the next start finishes the restore. -/
def worldRecovery : List (WorkEvent TarRestoreOrder) :=
  replicate 9 .step ++ [.crash, .plan .finish] ++ replicate 13 .step

theorem worldRecovery_runs : (runAll (fun site event => if FailsFenced site event then
      (tarRestoreScript String worldStaging).next site event else none) worldRestore
      worldRecovery).isSome = true := by decide +kernel

def worldRecovered : Worksite (TarTarget String) (TarRestoreStep String) Bool :=
  (runAll (fun site event => if FailsFenced site event then
    (tarRestoreScript String worldStaging).next site event else none) worldRestore
    worldRecovery).get worldRecovery_runs

theorem tarRestore_safe_recovered :
    TarSafe worldStaging oldWorld worldArchive worldRecovered ∧
      worldRecovered.state.entries.get "world" = some (.whole "new") := by
  have reached : ((tarRestoreSystem worldStaging oldWorld worldArchive).restrict
      FailsFenced).Reachable worldRecovered :=
    System.reachable_of_guardedRunAll (BeginsTarRestore worldStaging oldWorld worldArchive) _
      FailsFenced worldRestore_begins worldRecovery worldRecovery_runs
  have step : (tarRestoreSystem worldStaging oldWorld worldArchive).step worldRecovered .crash
      ⟨(tarRestoreScript String worldStaging).restart worldRecovered.state, none⟩ := rfl
  exact ⟨(tarRestore_safe reached step).1, by decide +kernel⟩

def worldRun (events : List (WorkEvent TarRestoreOrder)) :
    Option (Worksite (TarTarget String) (TarRestoreStep String) Bool) :=
  runAll (tarRestoreScript String worldStaging).next worldRestore events

theorem reachable_worldRun {events : List (WorkEvent TarRestoreOrder)}
    {site : Worksite (TarTarget String) (TarRestoreStep String) Bool}
    (run : worldRun events = some site) :
    (tarRestoreSystem worldStaging oldWorld worldArchive).Reachable site :=
  ⟨worldRestore, events, worldRestore_begins, System.run_of_runAll run⟩

theorem swapping_runs : (worldRun (replicate 6 .step)).isSome = true := by decide +kernel

/-- A restore that stops once its folder is reserved leaves the folder, with no journal to settle; and
    one whose journal is in place swaps a target that isn't fenced yet. -/
theorem tarRestore_leftover :
    (∃ site, (tarRestoreSystem worldStaging oldWorld worldArchive).Reachable site ∧
      site.work = none ∧ site.state.staging ≠ none ∧
      ∀ order, (tarRestoreScript String worldStaging).plan site.state order = none) ∧
    ∃ site, (tarRestoreSystem worldStaging oldWorld worldArchive).Reachable site ∧
      site.state.journal = some .clearing ∧ site.state.fenced = false := by
  refine ⟨?_, ?_⟩
  · refine ⟨⟨⟨oldWorld, some .empty, none, false, false⟩, none⟩,
      @reachable_worldRun [.step, .crash] _ (by decide +kernel), rfl, by simp, ?_⟩
    intro order
    cases order <;> rfl
  · exact ⟨_, reachable_worldRun (Option.some_get swapping_runs).symm, by decide +kernel,
      by decide +kernel⟩

end Kiln.Relay
