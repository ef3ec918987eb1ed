import Mathlib
import Kiln.Lib.FileTree
import Kiln.Lib.Reader
import Kiln.Relay.TarRestore

/-!
# Tar archives of an App's folder or a volume

How a backup repacks what Docker archives, the rules its entries keep, and how a restore stages them
(`apps/relay/src/backups/tar-archives.ts:77-113`, `:264-642`, `:785-815`, `:978-998`,
`backups/exclude.ts`).

An archive is the list of its entries, as what reads it off the compressed file gives them. What of an
entry's header no function reads and every one hands on, such as when it was changed, is left out, and
so are a backup's progress and the limit on its compressed size. `minimatch` is a parameter.
-/

namespace Kiln.Relay
open Kiln.Lib List

/-- `MOUNT`. -/
def tarMount : List Char := "/volume".toList
/-- `SOURCE_PREFIX`. -/
def tarSourcePrefix : List Char := "volume".toList
/-- `DATA_PREFIX`. -/
def tarDataPrefix : List Char := "data".toList
/-- `MANIFEST_PATH`. -/
def tarManifestPath : List Char := ".kiln-backup/manifest.json".toList
/-- `MAX_ENTRIES`. -/
def tarMaxEntries : Nat := 1000000
/-- `XATTR_PREFIX`. -/
def tarXattrPrefix : List Char := "SCHILY.xattr.".toList
def tarStagingPrefix : List Char := tarRestoreStagingPrefix.toList

inductive TarType where
  | file
  | link
  | symlink
  | directory
  | special (name : List Char)
  deriving DecidableEq, Repr

abbrev Pax := Option (List (List Char × List Char))

structure TarHeader where
  name : List Char
  type : Option TarType
  linkname : Option (List Char) := none
  size : Nat := 0
  uid : Option Nat := none
  gid : Option Nat := none
  mode : Option Nat := none
  pax : Pax := none
  deriving DecidableEq, Repr

/-- An entry of an archive, and its body. -/
structure TarFile (α : Type*) where
  header : TarHeader
  body : α
  deriving DecidableEq, Repr

structure TarError where
  code : String
  operation : String
  reason : String
  deriving DecidableEq, Repr

/-- `requireSafePath`. -/
def requireSafePath (path : List Char) (operation : String) : Except TarError Unit :=
  if path = [] then .ok ()
  else if path.head? = some '/' || path.contains (Char.ofNat 0x5c) || path.contains (Char.ofNat 0) ||
      (path.splitOn '/').any fun segment =>
        segment.isEmpty || segment = ".".toList || segment = "..".toList then
    .error ⟨"unsafe_archive_path", operation, "The backup contains an unsafe path"⟩
  else .ok ()

/-- A name under a folder, relative to it. -/
def pathUnder (folder : List Char) (operation reason : String) (name : List Char) :
    Except TarError (List Char) :=
  let trimmed := name.rdropWhile (· = '/')
  if trimmed = folder then .ok []
  else if ¬ (folder ++ ['/']).isPrefixOf trimmed then
    .error ⟨"unsafe_archive_path", operation, reason⟩
  else do
    let path := trimmed.drop (folder.length + 1)
    requireSafePath path operation
    return path

/-- `sourcePath`. -/
def sourcePath : List Char → Except TarError (List Char) :=
  pathUnder tarSourcePrefix "create.collect" "Docker archived a path outside the source"

/-- `archivedDataPath`. -/
def archivedDataPath : List Char → Except TarError (List Char) :=
  pathUnder tarDataPrefix "restore.validate" "The backup contains a path outside its data"

/-- `dataName`. -/
def dataName (path : List Char) (directory : Bool) : List Char :=
  if path = [] then tarDataPrefix ++ ['/']
  else tarDataPrefix ++ '/' :: path ++ if directory then ['/'] else []

/-- `entryPax`. -/
def entryPax (pax : Pax) : Pax := pax.bind fun records =>
  let rest := records.filter fun record =>
    record.1 ≠ "linkpath".toList ∧ record.1 ≠ "path".toList
  if rest.isEmpty then none else some rest

/-- `rootXattrs`. -/
def rootXattrs (pax : Pax) : Pax := pax.bind fun records =>
  let xattrs := records.filter fun record => tarXattrPrefix.isPrefixOf record.1
  if xattrs.isEmpty then none else some xattrs

/-! ## Rules -/

/-- `ARCHIVED_TYPES.has`, where an entry without a type is a file. -/
def archivedType (type : Option TarType) : Bool :=
  match type.getD .file with
  | .special _ => false
  | _ => true

/-- `ArchiveRules`. -/
structure ArchiveRules where
  operation : String
  seen : OrderedMap (List Char) TarType := .empty
  symlinks : List (List Char) := []
  deriving DecidableEq

namespace ArchiveRules

def isFile (rules : ArchiveRules) (path : List Char) : Bool := rules.seen.get path = some .file

def fail {β : Type} (rules : ArchiveRules) (code reason : String) : Except TarError β :=
  .error ⟨code, rules.operation, reason⟩

/-- Whether a path has a folder that is a symlink. -/
def writesThrough (rules : ArchiveRules) (path : List Char) : Bool :=
  let parents := (path.splitOn '/').dropLast
  (range parents.length).any fun index =>
    rules.symlinks.contains (Path.joined '/' (parents.take (index + 1)))

def check (rules : ArchiveRules) (path : List Char) (type : Option TarType)
    (linkTarget : Option (List Char)) : Except TarError ArchiveRules :=
  if rules.seen.has path || rules.seen.size ≥ tarMaxEntries then
    rules.fail "duplicate_archive_path" "The backup contains duplicate paths"
  else if tarStagingPrefix.isPrefixOf ((path.splitOn '/').headD []) then
    rules.fail "unsafe_archive_path" "The backup contains a path restores keep for their staging folders"
  else if rules.writesThrough path then
    rules.fail "unsafe_archive_path" "The backup writes through a symbolic link"
  else if !archivedType type then
    rules.fail "unsupported_archive_entry" "The backup contains a special file"
  else if type = some .link && !(linkTarget.elim false rules.isFile) then
    rules.fail "unsafe_archive_path" "The backup links to a file it doesn't hold"
  else if path = [] && type ≠ some .directory then
    rules.fail "invalid_archive" "The backup's root isn't a folder"
  else .ok { rules with
    seen := rules.seen.set path (type.getD .file)
    symlinks := if type = some .symlink then path :: rules.symlinks else rules.symlinks }

/-- What an entry keeps that the rules accept, and what they note of it. -/
structure Accepts (rules : ArchiveRules) (path : List Char) (type : Option TarType)
    (linkTarget : Option (List Char)) (after : ArchiveRules) : Prop where
  new : rules.seen.get path = none
  few : rules.seen.size < tarMaxEntries
  unreserved : ¬ tarStagingPrefix <+: (path.splitOn '/').headD []
  direct : rules.writesThrough path = false
  archived : archivedType type = true
  target : type = some .link → ∃ target ∈ linkTarget, rules.isFile target = true
  root : path = [] → type = some .directory
  after : after = { rules with
    seen := rules.seen.set path (type.getD .file)
    symlinks := if type = some .symlink then path :: rules.symlinks else rules.symlinks }

theorem check_eq_ok {rules after : ArchiveRules} {path : List Char} {type : Option TarType}
    {linkTarget : Option (List Char)} :
    rules.check path type linkTarget = .ok after ↔ rules.Accepts path type linkTarget after := by
  unfold check
  constructor
  · intro accepted
    split at accepted
    · cases accepted
    rename_i new
    split at accepted
    · cases accepted
    rename_i unreserved
    split at accepted
    · cases accepted
    rename_i direct
    split at accepted
    · cases accepted
    rename_i archived
    split at accepted
    · cases accepted
    rename_i target
    split at accepted
    · cases accepted
    rename_i root
    simp only [Bool.or_eq_true, decide_eq_true_eq, not_or, OrderedMap.has, Bool.not_eq_true,
      Option.isSome_eq_false_iff, Option.isNone_iff_eq_none, not_le, ge_iff_le] at new
    refine ⟨new.1, new.2, fun reserved => unreserved (List.isPrefixOf_iff_prefix.mpr reserved),
      by simpa using direct, by simpa using archived,
      fun is => ?_, fun is => ?_, (Except.ok.inj accepted).symm⟩
    · subst is
      cases linkTarget with
      | none => simp at target
      | some linked => exact ⟨linked, rfl, by simpa using target⟩
    · subst is
      simpa using root
  · rintro ⟨new, few, unreserved, direct, archived, target, root, rfl⟩
    rw [if_neg (by simp [OrderedMap.has, new, few]), 
      if_neg fun reserved => unreserved (List.isPrefixOf_iff_prefix.mp reserved),
      if_neg (by simp [direct]), if_neg (by simp [archived]), if_neg, if_neg]
    · simpa using root
    · intro refused
      rw [Bool.and_eq_true, decide_eq_true_eq] at refused
      rcases target refused.1 with ⟨linked, rfl, is⟩
      simp [is] at refused

theorem writesThrough_iff {rules : ArchiveRules} {path : List Char} :
    rules.writesThrough path = true ↔ ∃ parent ∈ FileTree.parents (Path.segments '/' path), parent ≠ [] ∧
        Path.joined '/' parent ∈ rules.symlinks := by
  unfold writesThrough
  by_cases empty : path = []
  · subst empty
    simp [FileTree.parents]
  rw [Path.segments, if_neg empty]
  have some' := splitOn_ne_nil '/' path
  generalize path.splitOn '/' = names at some'
  have long : 0 < names.length := length_pos_iff.mpr some'
  simp only [any_eq_true, mem_range, length_dropLast, contains_iff_mem, FileTree.parents, mem_map]
  constructor
  · rintro ⟨index, short, listed⟩
    rw [dropLast_eq_take, take_take, min_eq_left (by omega)] at listed
    refine ⟨names.take (index + 1), ⟨index + 1, by omega, rfl⟩, ?_, listed⟩
    intro none'
    rcases take_eq_nil_iff.mp none' with zero | nil'
    · omega
    · exact some' nil'
  · rintro ⟨parent, ⟨n, short, rfl⟩, filled, listed⟩
    cases n with
    | zero => exact absurd take_zero filled
    | succ n =>
      refine ⟨n, by omega, ?_⟩
      rw [dropLast_eq_take, take_take, min_eq_left (by omega)]
      exact listed

def finish (rules : ArchiveRules) : Except TarError Unit :=
  if rules.seen.has [] then .ok () else rules.fail "invalid_archive" "The backup holds no files"

end ArchiveRules

/-! ## Staging -/

structure TarRestoreRoot where
  gid : Nat
  mode : Nat
  uid : Nat
  xattrs : Pax
  deriving DecidableEq, Repr

structure Staging (α : Type*) where
  rules : ArchiveRules := { operation := "restore.validate" }
  root : Option TarRestoreRoot := none
  put : List (TarFile α) := []

variable {α : Type}

/-- The path that a hard link names. -/
def TarHeader.linkTarget (header : TarHeader) : Except TarError (Option (List Char)) :=
  if header.type = some .link then some <$> archivedDataPath (header.linkname.getD []) else .ok none

/-- The root, as a restore is to leave it once swapped in. -/
def TarHeader.restoredRoot (header : TarHeader) : TarRestoreRoot :=
  ⟨header.gid.getD 0, header.mode.getD 0o755, header.uid.getD 0, rootXattrs header.pax⟩

/-- An entry's header as Docker is to extract it. -/
def TarHeader.put (staging path : List Char) (target : Option (List Char)) (header : TarHeader) : TarHeader where
  type := header.type
  size := header.size
  linkname := target.elim header.linkname fun target => some (staging ++ '/' :: target)
  -- The staging folder stays private until it's swapped in.
  uid := if path = [] then some 0 else header.uid
  gid := if path = [] then some 0 else header.gid
  mode := if path = [] then some 0o700 else header.mode
  name :=
    if path = [] then staging ++ ['/']
    else staging ++ '/' :: path ++ if header.type = some .directory then ['/'] else []
  pax := entryPax header.pax

/-- One entry after the manifest. -/
def stageEntry (staging : List Char) (state : Staging α) (entry : TarFile α) :
    Except TarError (Staging α) := do
  let path ← archivedDataPath entry.header.name
  let target ← entry.header.linkTarget
  let rules ← state.rules.check path entry.header.type target
  return {
    rules
    root := if path = [] then some entry.header.restoredRoot else state.root
    put := state.put ++ [⟨entry.header.put staging path target, entry.body⟩] }

def entriesAfterManifest : List (TarFile α) → Except TarError (List (TarFile α))
  | [] => .ok []
  | first :: entries =>
      if first.header.name = tarManifestPath then .ok entries
      else .error ⟨"invalid_archive", "restore.validate", "The archive doesn't begin with its manifest"⟩

/-- `stage`: what it answers, and what it sends Docker to extract. -/
def stage (staging : List Char) (archive : List (TarFile α)) :
    Except TarError (Option TarRestoreRoot × List (TarFile α)) := do
  let entries ← entriesAfterManifest archive
  let state ← entries.foldlM (stageEntry staging) {}
  state.rules.finish
  return (state.root, state.put)

/-! ## Packing -/

/-- Characters that `trim` takes off a text's ends. -/
def isTrimmed (c : Char) : Bool :=
  c.toNat ∈ [0x9, 0xa, 0xb, 0xc, 0xd, 0x20, 0xa0, 0x1680, 0x2028, 0x2029, 0x202f, 0x205f, 0x3000,
    0xfeff] ∨ 0x2000 ≤ c.toNat ∧ c.toNat ≤ 0x200a

def trimmed (text : List Char) : List Char := (text.dropWhile isTrimmed).rdropWhile isTrimmed

/-- `backupPathIsExcluded`, from whether a candidate matches a pattern, also by its last name. -/
def backupPathIsExcluded (minimatch : List Char → List Char → Bool → Bool) (path : List Char)
    (directory : Bool) (patterns : List (List Char)) : Bool :=
  patterns.foldl (fun excluded rawPattern =>
    let text := trimmed rawPattern
    if text.isEmpty || text.head? = some '#' then excluded
    else
      let negated := text.head? = some '!'
      let pattern := if negated then text.drop 1 else text
      if pattern.isEmpty then excluded
      else
        let candidate := if directory then path ++ ['/'] else path
        if minimatch candidate pattern (!pattern.contains '/') then !negated else excluded) false

/-- What a backup reads from Docker, and what it leaves out. -/
structure TarBackupOptions (α : Type) where
  /-- `engine.containerArchive` of a path of the helper. -/
  containerArchive : List Char → Except TarError (List (TarFile α))
  minimatch : List Char → List Char → Bool → Bool
  exclude : List (List Char)
  manifest : α

/-- `readOneFile`. -/
def readOneFile (options : TarBackupOptions α) (path : List Char) : Except TarError (TarFile α) := do
  let archive ← options.containerArchive (tarMount ++ '/' :: path)
  match archive.find? fun entry => entry.header.type = some .file with
  | some entry => return entry
  | none => throw ⟨"archive_failed", "create.collect", "A hard-linked file changed while it was backed up"⟩

structure Repacking (α : Type*) where
  packed : List (TarFile α)
  excluded : List (List Char) := []
  rules : ArchiveRules := { operation := "create.validate" }
  /-- Files left out whose hard links stay in, by the path their first link was archived at. -/
  materialized : OrderedMap (List Char) (List Char) := .empty
  entries : Nat := 0
  warnings : List (List Char) := []

/-- Whether a path is left out. -/
def Repacking.skipped (options : TarBackupOptions α) (state : Repacking α) (path : List Char)
    (directory : Bool) : Bool :=
  path ≠ [] && (state.excluded.any (fun leading => (leading ++ ['/']).isPrefixOf path) ||
      (!path.contains '/' && tarStagingPrefix.isPrefixOf path) ||
      backupPathIsExcluded options.minimatch path directory options.exclude)

/-- `Header["type"]`, as a warning has it. -/
def tarTypeName : Option TarType → List Char
  | some (.special name) => name
  | some .file => "file".toList
  | some .link => "link".toList
  | some .symlink => "symlink".toList
  | some .directory => "directory".toList
  | none => "null".toList

/-- An entry whose path and type are checked goes into the archive. -/
def Repacking.add (state : Repacking α) (path : List Char) (type : Option TarType)
    (linkTarget : Option (List Char)) (entry : TarFile α) : Except TarError (Repacking α) := do
  let rules ← state.rules.check path type linkTarget
  return { state with rules, packed := state.packed ++ [entry] }

/-- A hard link, of a path: to what is in the archive, or in place of what was left out. -/
def repackLink (options : TarBackupOptions α) (state : Repacking α) (path : List Char)
    (entry : TarFile α) : Except TarError (Repacking α) := do
  let linked ← sourcePath (entry.header.linkname.getD [])
  match if state.rules.isFile linked then some linked else state.materialized.get linked with
  | none =>
      -- The file it links to was left out, so this link holds its contents.
      let file ← readOneFile options path
      let state ← state.add path (some .file) none ⟨{ entry.header with
        linkname := none
        name := dataName path false
        pax := entryPax entry.header.pax
        size := file.header.size
        type := some .file }, file.body⟩
      return { state with materialized := state.materialized.set linked path }
  | some target =>
      state.add path (some .link) (some target) ⟨{ entry.header with
        linkname := some (dataName target false)
        name := dataName path false
        pax := entryPax entry.header.pax }, entry.body⟩

/-- An entry of a path, once counted. -/
def repackPath (options : TarBackupOptions α) (state : Repacking α) (path : List Char)
    (entry : TarFile α) : Except TarError (Repacking α) :=
  let directory : Bool := entry.header.type = some .directory
  if state.skipped options path directory then
    .ok (if directory then { state with excluded := state.excluded ++ [path] } else state)
  else if !archivedType entry.header.type then
    let warning := "Skipped ".toList ++ tarTypeName entry.header.type ++ ' ' :: path
    .ok { state with warnings := state.warnings ++ [warning.take 1024] }
  else if entry.header.type = some .link then repackLink options state path entry
  else
    state.add path entry.header.type none ⟨{ entry.header with
      name := dataName path directory
      pax := entryPax entry.header.pax }, entry.body⟩

/-- One entry of the source. -/
def repackEntry (options : TarBackupOptions α) (state : Repacking α) (entry : TarFile α) :
    Except TarError (Repacking α) := do
  let path ← sourcePath entry.header.name
  if state.entries + 1 > tarMaxEntries then
    throw ⟨"too_many_entries", "create.collect", "Backups cannot contain more than 1,000,000 entries"⟩
  else repackPath options { state with entries := state.entries + 1 } path entry

/-- `repack`: the archive's entries, and the warnings. -/
def repack (options : TarBackupOptions α) (archive : List (TarFile α)) :
    Except TarError (List (TarFile α) × List (List Char)) := do
  let manifest : TarFile α :=
    ⟨{ name := tarManifestPath, type := some .file, mode := some 0o600 }, options.manifest⟩
  let state ← archive.foldlM (repackEntry options) { packed := [manifest] }
  state.rules.finish
  return (state.packed, state.warnings)

/-- `createTarBackup`. -/
def createTarBackup (options : TarBackupOptions α) : Except TarError (List (TarFile α) × List (List Char)) := do
  let archive ← options.containerArchive tarMount
  repack options archive

end Kiln.Relay
