import Mathlib
import Kiln.Lib.FileForest
import Kiln.Lib.Utf16

/-!
# Archives that carry files from one place to another

What `packTransferArchive` puts into a tar archive and `installTransferArchive` takes out of it, and what the
`archive` and `unarchive` file actions do with a zip (`apps/relay/src/files.ts`), over roots of regular files
and folders. Nothing changes while it is packed or taken out.

A root lists its files and folders as `localeCompare` sorts them. An archive is its entries: tar keeps each
name, and what the zip writer stores of one is a parameter. Modes, owners and times are left out, as is the
number that `unarchive` adds to a name that is taken. An error of the system has no text.
-/

namespace Kiln.Relay
open Kiln.Lib

/-- `MAX_ARCHIVE_ITEMS`. -/
def maxArchiveItems : Nat := 50000

/-- `MAX_TRANSFER_BYTES`. -/
def maxTransferBytes : Nat := 20 * 1024 * 1024 * 1024

/-- `RelayFilesystemError`. -/
structure FilesystemError where
  code : String
  operation : String
  reason : String
  deriving DecidableEq, Repr

/-- `systemFilesystemError`, for what isn't there or is in the way. -/
def ioError (operation : String) : FilesystemError := ⟨"io_error", operation, ""⟩

def nulChar : Char := Char.ofNat 0

def backslash : Char := Char.ofNat 0x5c

/-- A name that a file may have. -/
def IsFileName (name : List Char) : Prop :=
  name ≠ [] ∧ '/' ∉ name ∧ nulChar ∉ name ∧ name ≠ ".".toList ∧ name ≠ "..".toList

instance (name : List Char) : Decidable (IsFileName name) :=
  inferInstanceAs (Decidable (_ ∧ _ ∧ _ ∧ _ ∧ _))

/-- The files and folders under a root. -/
structure FilesRoot (α : Type) where
  files : FileForest (List Char) (List α)
  distinct : files.Distinct
  named : files.AllNames IsFileName

/-! ## Paths -/

/-- A path without the slashes at its end. -/
def trimSlashes (path : List Char) : List Char := path.rdropWhile (· = '/')

/-- The names that `resolve` keeps of a path without `..`. -/
def resolveNames (path : List Char) : List (List Char) :=
  (path.splitOn '/').filter fun name => name ≠ [] && name ≠ ".".toList

/-- `basename`. -/
def basename (path : List Char) : List Char := ((trimSlashes path).splitOn '/').getLastD []

/-- `validateRelativePath`. -/
def validateRelativePath (path : List Char) : Except FilesystemError Unit :=
  if path ≠ [] ∧ nulChar ∉ path ∧ path.head? ≠ some '/' ∧
      "..".toList ∉ path.splitOnP fun c => c = backslash || c = '/' then
    .ok ()
  else .error ⟨"invalid_path", "path", "Invalid relative path"⟩

/-- What has no parent before it in the list. -/
def withoutNested : List (List Char) → List (List Char) → List (List Char)
  | _, [] => []
  | before, path :: rest =>
      if before.any fun parent => (parent ++ ['/']).isPrefixOf path then
        withoutNested (before ++ [path]) rest
      else path :: withoutNested (before ++ [path]) rest

/-- `distinctMutationPaths`. -/
def distinctMutationPaths (paths : List (List Char)) : List (List Char) :=
  withoutNested [] <|
    ((paths.map trimSlashes).eraseDups.filter (· ≠ [])).insertionSort fun left right =>
      (Utf16.encode left).length ≤ (Utf16.encode right).length

/-- `existingMutationEntry`, of a root without links. -/
def existingMutationEntry {α : Type} (files : FileForest (List Char) (List α)) (path : List Char) :
    Except FilesystemError (FileEntry (List Char) (List α)) := do
  let normalized := trimSlashes path
  validateRelativePath normalized
  match resolveNames normalized with
  | [] =>
      .error ⟨"path_outside_instance", "path", "This path or a link in it leads outside these files"⟩
  | names =>
      match (FileEntry.folder files).at? names with
      | some entry => .ok entry
      | none => .error (ioError "mutation.statSource")

/-! ## Packing -/

/-- `ArchiveDownloadEntry`. A file has its content. -/
structure ArchiveEntry (α : Type) where
  name : List Char
  content : Option (List α)
  deriving DecidableEq, Repr

/-- The entries collected so far, and their size. -/
structure CollectedEntries (α : Type) where
  entries : List (ArchiveEntry α) := []
  totalSize : Nat := 0
  deriving DecidableEq, Repr

def tooManyItems (operation : String) : FilesystemError :=
  ⟨"archive_too_large", operation, "Archives cannot contain more than 50,000 entries"⟩

namespace CollectedEntries

variable {α : Type}

def add (collected : CollectedEntries α) (entry : ArchiveEntry α) :
    Except FilesystemError (CollectedEntries α) :=
  if collected.entries.length ≥ maxArchiveItems then .error (tooManyItems "mutation.archive")
  else
    let totalSize := collected.totalSize + (entry.content.getD []).length
    if entry.content.isSome ∧ totalSize > maxTransferBytes then
      .error ⟨"archive_too_large", "mutation.archive", "Archive contents exceed the 20 GiB transfer limit"⟩
    else .ok ⟨collected.entries ++ [entry], totalSize⟩

/-- `visit`, of what is in a folder. The folder's path and its name in the archive are given. -/
def visitChildren (path name : List Char) :
    FileForest (List Char) (List α) → CollectedEntries α → Except FilesystemError (CollectedEntries α)
  | .nil, collected => .ok collected
  | .file child content rest, collected => do
      validateRelativePath (path ++ '/' :: child)
      let collected ← collected.add ⟨name ++ '/' :: child, some content⟩
      visitChildren path name rest collected
  | .folder child children rest, collected => do
      validateRelativePath (path ++ '/' :: child)
      let collected ← collected.add ⟨name ++ '/' :: child, none⟩
      let collected ← visitChildren (path ++ '/' :: child) (name ++ '/' :: child) children collected
      visitChildren path name rest collected

/-- `visit`. -/
def visit (collected : CollectedEntries α) (path name : List Char)
    (entry : FileEntry (List Char) (List α)) : Except FilesystemError (CollectedEntries α) :=
  match entry with
  | .file content => collected.add ⟨name, some content⟩
  | .folder children => do
      let collected ← collected.add ⟨name, none⟩
      visitChildren path name children collected

end CollectedEntries

/-- `collectArchiveEntries`. -/
def collectArchiveEntries {α : Type} (files : FileForest (List Char) (List α))
    (paths : List (List Char)) : Except FilesystemError (List (ArchiveEntry α)) := do
  let collected ← paths.foldlM (fun (collected : CollectedEntries α) path => do
    let entry ← existingMutationEntry files path
    -- A child's path is relative to the root, as `resolve` has it.
    collected.visit (Path.joined '/' (resolveNames path)) (basename path) entry) {}
  return collected.entries

/-- What a transfer selects: the whole root where it names no paths. -/
def selectedPaths {α : Type} (files : FileForest (List Char) (List α)) (paths : List (List Char)) :
    List (List Char) :=
  if paths = [] then files.names else distinctMutationPaths paths

/-- An entry as it is in an archive. -/
structure ArchivedFile (α : Type) where
  fileName : List Char
  directory : Bool
  content : List α
  deriving DecidableEq, Repr

/-- The name that an archive is given for an entry: a folder's ends in a slash. -/
def ArchiveEntry.givenName {α : Type} (entry : ArchiveEntry α) : List Char :=
  if entry.content.isSome then entry.name else entry.name ++ ['/']

/-- `writeTransferArchive`. -/
def writeTransferArchive {α : Type} (entries : List (ArchiveEntry α)) : List (ArchivedFile α) :=
  entries.map fun entry => ⟨entry.givenName, entry.content.isNone, entry.content.getD []⟩

/-- `packTransferArchive`. -/
def packTransferArchive {α : Type} (files : FileForest (List Char) (List α))
    (paths : List (List Char)) : Except FilesystemError (List (ArchivedFile α)) := do
  let entries ← collectArchiveEntries files (selectedPaths files paths)
  return writeTransferArchive entries

/-- `writeZipArchive`, with what the zip writer stores of a name. -/
def writeZipArchive {α : Type} (stored : List Char → List Char) (entries : List (ArchiveEntry α)) :
    List (ArchivedFile α) :=
  entries.map fun entry =>
    let fileName := stored entry.givenName
    ⟨fileName, fileName.getLast? = some '/', entry.content.getD []⟩

/-- The `archive` file action. -/
def archiveFiles {α : Type} (stored : List Char → List Char) (files : FileForest (List Char) (List α))
    (paths : List (List Char)) : Except FilesystemError (List (ArchivedFile α)) := do
  let entries ← collectArchiveEntries files (distinctMutationPaths paths)
  return writeZipArchive stored entries

/-! ## Inspecting -/

/-- `validateArchiveEntryPath`, with the names there were before. -/
def validateArchiveEntryPath (fileName : List Char) (directory : Bool) (names : List (List Char)) :
    Except FilesystemError (List Char) :=
  let name := if directory then trimSlashes fileName else fileName
  if name = [] ∨ backslash ∈ fileName ∨ nulChar ∈ fileName ∨ fileName.head? = some '/' ∨
      ∃ segment ∈ name.splitOn '/', segment = [] ∨ segment = ".".toList ∨ segment = "..".toList then
    .error ⟨"unsafe_archive_path", "mutation.unarchive", "The archive contains an unsafe path"⟩
  else if name ∈ names then
    .error ⟨"duplicate_archive_path", "mutation.unarchive", "The archive contains duplicate paths"⟩
  else .ok name

/-- The entries inspected so far, each under its name, and their size. -/
structure InspectedEntries (α : Type) where
  entries : List (ArchiveEntry α) := []
  totalSize : Nat := 0
  deriving DecidableEq, Repr

/-- What `inspectTarGzArchive` and `extractZipArchive` do with an entry. -/
def InspectedEntries.add {α : Type} (inspected : InspectedEntries α) (file : ArchivedFile α) :
    Except FilesystemError (InspectedEntries α) :=
  if inspected.entries.length ≥ maxArchiveItems then .error (tooManyItems "mutation.unarchive")
  else do
    let name ← validateArchiveEntryPath file.fileName file.directory (inspected.entries.map (·.name))
    let totalSize := inspected.totalSize + file.content.length
    if totalSize > maxTransferBytes then
      .error ⟨"archive_too_large", "mutation.unarchive", "The archive expands beyond the 20 GiB transfer limit"⟩
    else
      let content := if file.directory then none else some file.content
      .ok ⟨inspected.entries ++ [⟨name, content⟩], totalSize⟩

def inspectArchive {α : Type} (archive : List (ArchivedFile α)) :
    Except FilesystemError (List (ArchiveEntry α)) := do
  let inspected ← archive.foldlM InspectedEntries.add {}
  return inspected.entries

/-! ## Taking out -/

/-- What is in a folder, by the names below it. -/
abbrev InstalledTree (α : Type) := FileTree (List Char) Unit (List α) Unit

/-- A folder with nothing in it. -/
def emptyFolder {α : Type} : InstalledTree α := OrderedMap.empty.set [] .folder

/-- What is in a folder once entries were extracted into it. -/
def extractEntries {α : Type} (tree : InstalledTree α) (entries : List (ArchiveEntry α)) :
    Except FilesystemError (InstalledTree α) :=
  match tree.build (entries.map fun entry => (resolveNames entry.name, entry.content)) with
  | some after => .ok after
  | none => .error (ioError "transfer.install")

/-- What is where a transfer installs. -/
inductive TransferDestination (α : Type) where
  | missing
  | folder (tree : InstalledTree α)
  | other
  deriving DecidableEq

/-- `installTransferTree`. -/
def installTransferTree {α : Type} (destination : TransferDestination α)
    (archive : List (ArchivedFile α)) : Except FilesystemError (InstalledTree α) := do
  let entries ← inspectArchive archive
  match destination with
  | .missing => extractEntries emptyFolder entries
  | .folder tree =>
      if tree.entries.any fun entry => entry.1 ≠ [] then
        .error ⟨"target_exists", "mutation.unarchive", "The transfer's destination folder is not empty"⟩
      else extractEntries tree entries
  | .other =>
      .error ⟨"target_exists", "mutation.unarchive", "The transfer's destination is not a folder"⟩

/-- `extname`: from the last dot on, unless nothing comes before it. -/
def extname (name : List Char) : List Char :=
  let base := basename name
  let tail := (base.reverse.takeWhile (· ≠ '.')).reverse
  if tail.length + 1 < base.length ∧ base ≠ "..".toList then '.' :: tail else []

/-- `directUnarchiveDestination`, with `toLowerCase`. -/
def directUnarchiveDestination (toLowerCase : List Char → List Char)
    (requestedDestination archivedName : List Char) : List Char :=
  let archivedExtension := extname archivedName
  if archivedExtension = [] ∨
      (toLowerCase archivedExtension).isSuffixOf (toLowerCase (basename requestedDestination)) then
    requestedDestination
  else requestedDestination ++ archivedExtension

/-- What `unarchive` makes of a zip: one file at a path, or a folder at the requested one. -/
inductive Unarchived (α : Type) where
  | file (path : List Char) (content : List α)
  | folder (tree : InstalledTree α)
  deriving DecidableEq

/-- `extractZipArchive`. -/
def extractZipArchive {α : Type} (toLowerCase : List Char → List Char)
    (requestedDestination : List Char) (archive : List (ArchivedFile α)) :
    Except FilesystemError (Unarchived α) := do
  let entries ← inspectArchive archive
  match archive with
  | [single] =>
      if single.directory ∨ '/' ∈ single.fileName then
        let tree ← extractEntries emptyFolder entries
        return .folder tree
      else
        return .file (directUnarchiveDestination toLowerCase requestedDestination single.fileName)
          single.content
  | _ =>
      let tree ← extractEntries emptyFolder entries
      return .folder tree

/-! ## The claims on archives -/

/-- A tree is the selected files and folders, each under its selected name, and nothing else. -/
def Selects {α : Type} (files : FileForest (List Char) (List α)) (selected : List (List Char))
    (tree : InstalledTree α) : Prop :=
  ∀ path node, tree.get path = some node ↔ (path = [] ∧ node = .folder) ∨
      ∃ choice ∈ selected, ∃ below entry, path = basename choice :: below ∧
        (FileEntry.folder files).at? (resolveNames choice ++ below) = some entry ∧ node = entry.node

/-- The destination that a transfer installs into is missing or an empty folder. -/
def TransferDestination.Vacant {α : Type} : TransferDestination α → Prop
  | .missing => True
  | .folder tree => ∀ path, tree.get path = if path = [] then some .folder else none
  | .other => False

end Kiln.Relay
