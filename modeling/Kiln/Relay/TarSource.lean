import Kiln.Relay.TarArchives

/-!
# The files behind a tar archive

A file tree that a backup reads, in the order in which Docker archives it, what Docker's archive API
documents of its archive, and how it extracts one. `Keeps` says what of the tree a backup is for: what
its exclusions leave, but for files that no archive of it holds.
-/

namespace Kiln.Relay
open Kiln.Lib

inductive SourceNode (ι α : Type) where
  | directory
  | file (inode : ι) (content : α)
  | symlink (inode : ι) (target : List Char)
  | special (inode : ι) (type : List Char)
  deriving DecidableEq, Repr

variable {ι α : Type} [DecidableEq ι]

namespace SourceNode

/-- What two names share where they are one file's. -/
def inode? : SourceNode ι α → Option ι
  | .directory => none
  | .file inode _ | .symlink inode _ | .special inode _ => some inode

def isDirectory : SourceNode ι α → Bool
  | .directory => true
  | _ => false

def isSpecial : SourceNode ι α → Bool
  | .special _ _ => true
  | _ => false

/-- The type its first name is archived as. -/
def type : SourceNode ι α → TarType
  | .directory => .directory
  | .file _ _ => .file
  | .symlink _ _ => .symlink
  | .special _ type => .special type

end SourceNode

abbrev SourceNodes (ι α : Type) := List (List (List Char) × SourceNode ι α)

/-- The first name of a file. -/
def firstName (nodes : SourceNodes ι α) (inode : ι) : Option (List (List Char)) :=
  (nodes.find? fun entry => entry.2.inode? = some inode).map Prod.fst

/-- A tree in the order it is archived in: its root, and each folder before what it holds. -/
structure SourceTree (ι α : Type) [DecidableEq ι] where
  nodes : SourceNodes ι α
  root : nodes.head? = some ([], .directory)
  distinct : (nodes.map Prod.fst).Nodup
  nested : ∀ i (short : i < nodes.length), nodes[i].1 ≠ [] → (nodes[i].1.dropLast, .directory) ∈ nodes.take i
  named : ∀ entry ∈ nodes, Path.Named '/' entry.1
  linked : ∀ entry ∈ nodes, ∀ other ∈ nodes, ∀ inode, entry.2.inode? = some inode →
    other.2.inode? = some inode → entry.2 = other.2

/-- A path's name under a folder, as an archive has it. -/
def nameUnder (folder : List Char) (names : List (List Char)) (directory : Bool) : List Char :=
  if names = [] then folder ++ ['/']
  else folder ++ '/' :: Path.joined '/' names ++ if directory then ['/'] else []

/-- What Docker archives for a path of a tree: a folder, a file's first name with what it holds, or another of its names
as a link to the first. -/
structure SourceTree.Archives (tree : SourceTree ι α) (entry : List (List Char) × SourceNode ι α)
    (file : TarFile α) : Prop where
  name : file.header.name = nameUnder tarSourcePrefix entry.1 entry.2.isDirectory
  own : (∀ inode, entry.2.inode? = some inode → firstName tree.nodes inode = some entry.1) →
    file.header.type = some entry.2.type
  content : ∀ inode content, entry.2 = .file inode content →
    firstName tree.nodes inode = some entry.1 → file.body = content
  target : ∀ inode target, entry.2 = .symlink inode target →
    firstName tree.nodes inode = some entry.1 → file.header.linkname = some target
  link : ∀ inode first, entry.2.inode? = some inode → firstName tree.nodes inode = some first →
    first ≠ entry.1 → file.header.type = some .link ∧
      file.header.linkname = some (nameUnder tarSourcePrefix first false)

/-- A backup reads a tree: Docker's archive of the mount is the tree's, and the archive of one path has the file there
as a file, and nothing else as one. -/
structure TarBackupOptions.Reads (options : TarBackupOptions α) (tree : SourceTree ι α) : Prop where
  whole : ∀ archive, options.containerArchive tarMount = .ok archive → List.Forall₂ tree.Archives tree.nodes archive
  one : ∀ entry ∈ tree.nodes, ∀ archive, entry.2.isDirectory = false →
    options.containerArchive (tarMount ++ '/' :: Path.joined '/' entry.1) = .ok archive →
    ∀ file ∈ archive, file.header.type = some .file → ∃ inode, entry.2 = .file inode file.body

/-! ## What is kept -/

/-- A path that is left out, with all that is in it: a staging folder at the root, or what the exclusions name. -/
def TarBackupOptions.leavesOut (options : TarBackupOptions α) (path : List (List Char)) (directory : Bool) : Bool :=
  match path with
  | [] => false
  | [name] => tarStagingPrefix.isPrefixOf name ||
      backupPathIsExcluded options.minimatch name directory options.exclude
  | path => backupPathIsExcluded options.minimatch (Path.joined '/' path) directory options.exclude

def TarBackupOptions.outside (options : TarBackupOptions α) (path : List (List Char)) (directory : Bool) : Bool :=
  options.leavesOut path directory ||
    (FileTree.parents path).any fun above => options.leavesOut above true

/-- Whether a backup is to hold a path. -/
def TarBackupOptions.keeps (options : TarBackupOptions α) (entry : List (List Char) × SourceNode ι α) : Bool :=
  !options.outside entry.1 entry.2.isDirectory && !entry.2.isSpecial

/-- The first name that is kept of a file. -/
def keptName (options : TarBackupOptions α) (nodes : SourceNodes ι α) (inode : ι) :
    Option (List (List Char)) :=
  (nodes.find? fun entry => entry.2.inode? = some inode && options.keeps entry).map Prod.fst

/-! ## Extraction -/

abbrev StagedTree (α : Type) := FileTree (List Char) (List (List Char)) α (List Char)

/-- One entry of an archive that Docker extracts. A file is known by the path it was made at. -/
def extractEntry (tree : StagedTree α) (entry : TarFile α) : Option (StagedTree α) :=
  let path := Path.segments '/' (entry.header.name.rdropWhile (· = '/'))
  let linkname := entry.header.linkname.getD []
  match entry.header.type with
  | some .directory => tree.makeFolder path
  | some .symlink => tree.create path (.symlink linkname)
  | some .link => tree.link path (Path.segments '/' linkname)
  | _ => tree.create path (.file path entry.body)

/-- A mount whose staging folder was just made. -/
structure Reserved (mount : StagedTree α) (staging : List Char) : Prop where
  root : mount.get [] = some .folder
  folder : mount.get [staging] = some .folder
  empty : ∀ path, path ≠ [] → mount.get (staging :: path) = none

/-- A staged tree is what a backup of the source is to hold, and nothing else of the mount changed. -/
structure TreeRestores (options : TarBackupOptions α) (tree : SourceTree ι α) (staging : List Char)
    (mount staged : StagedTree α) : Prop where
  folder : ∀ path, (path, .directory) ∈ tree.nodes → options.keeps (ι := ι) (path, .directory) →
    staged.get (staging :: path) = some .folder
  /-- A file's names are one file, known by the first that is kept. -/
  file : ∀ path inode content, (path, .file inode content) ∈ tree.nodes →
    options.keeps (path, SourceNode.file inode content) →
    ∃ first, keptName options tree.nodes inode = some first ∧
      staged.get (staging :: path) = some (.file (staging :: first) content)
  symlink : ∀ path inode target, (path, .symlink inode target) ∈ tree.nodes →
    options.keeps (path, SourceNode.symlink (α := α) inode target) →
    staged.get (staging :: path) = some (.symlink target)
  only : ∀ path node, staged.get (staging :: path) = some node →
    ∃ entry ∈ tree.nodes, entry.1 = path ∧ options.keeps entry
  others : ∀ path, path.head? ≠ some staging → staged.get path = mount.get path

/-- Two kept names are one file's once staged exactly where they were in the source. -/
def KeepsLinks (options : TarBackupOptions α) (tree : SourceTree ι α) (staging : List Char)
    (staged : StagedTree α) : Prop :=
  ∀ path path' inode inode' content content',
    (path, .file inode content) ∈ tree.nodes → options.keeps (path, SourceNode.file inode content) →
    (path', .file inode' content') ∈ tree.nodes →
    options.keeps (path', SourceNode.file inode' content') →
    ((∃ identity, staged.get (staging :: path) = some (.file identity content) ∧
      staged.get (staging :: path') = some (.file identity content')) ↔ inode = inode')

/-- An archive has each kept file once, under the first name that is kept, and its other names as links to that one. -/
def PacksLinks (options : TarBackupOptions α) (tree : SourceTree ι α) (archive : List (TarFile α)) :
    Prop :=
  ∀ path inode content, (path, .file inode content) ∈ tree.nodes → options.keeps (path, SourceNode.file inode content) →
    ∃ first, keptName options tree.nodes inode = some first ∧ ∃ entry ∈ archive,
      entry.header.name = dataName (Path.joined '/' path) false ∧
      if first = path then entry.header.type = some .file ∧ entry.body = content
      else entry.header.type = some .link ∧ entry.header.linkname = some (dataName (Path.joined '/' first) false)

end Kiln.Relay
