import Kiln.Relay.TarArchives

/-!
# A restore's entries stay inside the staging folder

What `ArchiveRules` (`apps/relay/src/backups/tar-archives.ts:430-493`) accepts one by one as `stage`
(`:544-642`) reads it. A symlink may take the place of a folder that an earlier entry lies in without the
archive naming it, which the rules have not seen; where none does, no entry goes through a symlink.
-/

namespace Kiln.Relay
open Kiln.Lib List

/-- An entry as a restore stages it: where, what, and for a hard link the path it names. -/
structure StagedEntry where
  path : List (List Char)
  type : TarType
  target : Option (List (List Char))
  deriving DecidableEq, Repr

/-- What a header asks a restore to stage. -/
def TarHeader.staged (header : TarHeader) : Except TarError StagedEntry := do
  let path ← archivedDataPath header.name
  let target ← header.linkTarget
  return ⟨Path.segments '/' path, header.type.getD .file, target.map (Path.segments '/')⟩

/-- A path lies strictly below another. -/
def Below (path above : List (List Char)) : Prop := above <+: path ∧ above ≠ path

instance (path above : List (List Char)) : Decidable (Below path above) :=
  inferInstanceAs (Decidable (_ ∧ _))

/-- A later entry goes through no symlink that an earlier one made, by its path or a hard link's target, and as a
symlink takes the place of nothing that the earlier one goes through. -/
structure StaysInside (earlier later : StagedEntry) : Prop where
  path : earlier.type = .symlink → ¬ Below later.path earlier.path
  target : earlier.type = .symlink → ∀ target ∈ later.target, ¬ Below target earlier.path
  replaced : later.type = .symlink → ¬ later.path <+: earlier.path
  replacedTarget : later.type = .symlink → ∀ target ∈ earlier.target, ¬ later.path <+: target

/-- A symlink isn't at a path that an earlier entry's lies below. -/
def NotOver (earlier later : StagedEntry) : Prop :=
  later.type = .symlink → ¬ Below earlier.path later.path

/-- Rules that have accepted entries. -/
structure ArchiveRules.Follows (rules : ArchiveRules) (entries : List StagedEntry) : Prop where
  file : ∀ path type, rules.seen.get path = some type →
    ∃ entry ∈ entries, entry.path = Path.segments '/' path ∧ entry.type = type
  seen : ∀ entry ∈ entries, rules.seen.get (Path.joined '/' entry.path) = some entry.type ∧
    entry.path = Path.segments '/' (Path.joined '/' entry.path)
  symlinks : ∀ entry ∈ entries, entry.type = .symlink → entry.path ≠ [] ∧ Path.joined '/' entry.path ∈ rules.symlinks
  target : ∀ entry ∈ entries, ∀ target ∈ entry.target, ∃ other ∈ entries, other.path = target ∧ other.type = .file

variable {α : Type}

section step

variable {rules after : ArchiveRules} {entries : List StagedEntry} {path : List Char}
  {type : Option TarType} {target : Option (List Char)}

theorem ArchiveRules.Follows.empty {operation : String} : ArchiveRules.Follows { operation } [] := by
  refine ⟨?_, ?_, ?_, ?_⟩
  · intro path type found
    cases found
  all_goals
    intro entry listed
    cases listed

theorem ArchiveRules.Follows.accept (follows : rules.Follows entries)
    (link : target.isSome → type = some .link) (accepts : rules.Accepts path type target after) :
    after.Follows (entries ++ [⟨Path.segments '/' path, type.getD .file, target.map (Path.segments '/')⟩]) := by
  rw [accepts.after]
  have other : ∀ entry ∈ entries, Path.joined '/' entry.path ≠ path := by
    intro entry listed same
    have seen := (follows.seen entry listed).1
    rw [same, accepts.new] at seen
    cases seen
  refine ⟨?_, ?_, ?_, ?_⟩
  · intro p t found
    rw [OrderedMap.get_set] at found
    split at found
    · rename_i here
      subst here
      exact ⟨_, mem_append_right _ mem_cons_self, rfl, Option.some.inj found⟩
    · rcases follows.file p t found with ⟨entry, listed, is⟩
      exact ⟨entry, mem_append_left _ listed, is⟩
  · intro entry listed
    rcases mem_append.mp listed with before | now
    · rw [OrderedMap.get_set, if_neg (other entry before).symm]
      exact follows.seen entry before
    · rw [mem_singleton.mp now, Path.joined_segments, OrderedMap.get_set, if_pos rfl]
      exact ⟨rfl, rfl⟩
  · intro entry listed is
    rcases mem_append.mp listed with before | now
    · rcases follows.symlinks entry before is with ⟨filled, noted⟩
      refine ⟨filled, ?_⟩
      split
      · exact mem_cons_of_mem _ noted
      · exact noted
    rw [mem_singleton.mp now] at is ⊢
    have symlink : type = some .symlink := by
      cases type with
      | none => cases is
      | some type => exact congrArg some is
    rw [Path.joined_segments, if_pos symlink]
    refine ⟨fun empty => ?_, mem_cons_self⟩
    have root := accepts.root (Path.segments_injective '/' (empty.trans (Path.segments_nil '/').symm))
    rw [symlink] at root
    cases root
  · intro entry listed linked is
    rcases mem_append.mp listed with before | now
    · rcases follows.target entry before linked is with ⟨found, there, same⟩
      exact ⟨found, mem_append_left _ there, same⟩
    rw [mem_singleton.mp now] at is
    cases target with
    | none => cases is
    | some held =>
      cases is
      rcases accepts.target (link rfl) with ⟨found, same, file⟩
      cases same
      rcases follows.file held .file (of_decide_eq_true file) with ⟨found, there, named, kind⟩
      exact ⟨found, mem_append_left _ there, named, kind⟩

theorem ArchiveRules.Follows.direct (follows : rules.Follows entries)
    (accepts : rules.Accepts path type target after) {entry : StagedEntry} (listed : entry ∈ entries)
    (symlink : entry.type = .symlink) : ¬ Below (Path.segments '/' path) entry.path := by
  intro below
  have through : rules.writesThrough path = true := by
    rw [ArchiveRules.writesThrough_iff]
    rcases follows.symlinks entry listed symlink with ⟨filled, noted⟩
    exact ⟨entry.path, FileTree.mem_parents.mpr below, filled, noted⟩
  rw [accepts.direct] at through
  cases through

theorem ArchiveRules.Follows.stays (follows : rules.Follows entries)
    (inside : entries.Pairwise StaysInside) (accepts : rules.Accepts path type target after)
    (link : target.isSome → type = some .link)
    (entry : StagedEntry) (is : entry = ⟨Path.segments '/' path, type.getD .file, target.map (Path.segments '/')⟩)
    (over' : ∀ earlier ∈ entries, NotOver earlier entry) :
    ∀ earlier ∈ entries, StaysInside earlier entry := by
  subst is
  -- No file before this entry lies below a symlink before it, whichever came first.
  have apart : ∀ symlink ∈ entries, ∀ file ∈ entries, file.type = .file →
      symlink.type = .symlink → ¬ Below file.path symlink.path := by
    intro symlink there file there'
    refine Pairwise.forall_of_forall_of_flip (R := fun symlink file => file.type = .file → symlink.type = .symlink →
        ¬ Below file.path symlink.path) ?_ ?_ ?_ there there'
    · intro entry _ isFile isSymlink
      rw [isFile] at isSymlink
      cases isSymlink
    · exact inside.imp fun stays _ isSymlink => stays.path isSymlink
    · exact inside.imp fun stays _ isSymlink below => stays.replaced isSymlink below.1
  -- What an entry before this one goes through, this one doesn't take the place of.
  have keeps : ∀ earlier ∈ entries, type.getD .file = .symlink → ¬ Path.segments '/' path <+: earlier.path := by
    intro earlier listed isSymlink over''
    by_cases same : Path.segments '/' path = earlier.path
    · have seen := (follows.seen earlier listed).1
      rw [← same, Path.joined_segments, accepts.new] at seen
      cases seen
    · exact over' earlier listed isSymlink ⟨over'', same⟩
  intro earlier listed
  refine ⟨follows.direct accepts listed, ?_, keeps earlier listed, ?_⟩
  · intro isSymlink found named
    cases target with
    | none => cases named
    | some held =>
      cases named
      rcases accepts.target (link rfl) with ⟨other, same, file⟩
      cases same
      rcases follows.file held .file (of_decide_eq_true file) with ⟨file, there, is, isFile⟩
      rw [← is]
      exact apart earlier listed file there isFile isSymlink
  · intro isSymlink found named
    rcases follows.target earlier listed found named with ⟨file, there, is, -⟩
    rw [← is]
    exact keeps file there isSymlink

end step

end Kiln.Relay
