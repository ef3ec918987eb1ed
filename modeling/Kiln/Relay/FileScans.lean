import Kiln.Lib.OrderedMap
import Kiln.Lib.Transition

/-!
# Listings and searches, page by page

`apps/relay/src/files.ts`: a listing reads one folder and a search the folders below one, each a
page at a time. A scan keeps what it has read and not given yet, and its cursor asks for the next
page. One turn here is one turn of the loop that reads a page.
-/

namespace Kiln.Relay
open Kiln.Lib

/-- What a `Dirent` is. -/
inductive DirentKind where
  | directory
  | file
  | symbolicLink
  | other
  deriving DecidableEq

/-- What `lstat` gives of an entry. -/
structure FileMetadata where
  mtimeMs : Int
  size : Nat
  deriving DecidableEq

/-- A `Dirent`, with what there is at its path: what `lstat` gives, where the entry can be read; whether
`linksToDirectory`; and what a folder holds, where it can be opened. -/
inductive Dirent where
  | mk (name : String) (kind : DirentKind) (metadata : Option FileMetadata) (linksToDirectory : Bool)
    (folder : Option (List Dirent))

namespace Dirent

def name : Dirent → String
  | mk name .. => name

def kind : Dirent → DirentKind
  | mk _ kind .. => kind

def metadata : Dirent → Option FileMetadata
  | mk _ _ metadata .. => metadata

def linksToDirectory : Dirent → Bool
  | mk _ _ _ linksToDirectory _ => linksToDirectory

def folder : Dirent → Option (List Dirent)
  | mk _ _ _ _ folder => folder

end Dirent

inductive RelayFileKind where
  | directory
  | file
  deriving DecidableEq

/-- `RelayFileEntry`. -/
structure RelayFileEntry where
  kind : RelayFileKind
  modifiedAt : Int
  path : String
  size : Option Nat
  deriving DecidableEq

/-- `fileEntryPath` (`files.ts:1497-1500`). -/
def fileEntryPath (directory : String) (entry : Dirent) : String :=
  let path := directory ++ entry.name
  if entry.kind = .directory then path ++ "/" else path

/-- `supportedDirectoryEntry` (`files.ts:1502-1504`). -/
def supportedDirectoryEntry (entry : Dirent) : Bool :=
  entry.kind = .directory || entry.kind = .file || entry.kind = .symbolicLink

/-- `relayFileEntry` (`files.ts:1506-1526`). -/
def relayFileEntry (directory : String) (entry : Dirent) : Option RelayFileEntry :=
  let name := directory ++ entry.name
  entry.metadata.map fun metadata =>
    let kind :=
      if entry.kind = .directory || (entry.kind = .symbolicLink && entry.linksToDirectory) then
        RelayFileKind.directory
      else .file
    { kind
      modifiedAt := metadata.mtimeMs
      path := if kind = .directory then name ++ "/" else name
      size := if kind = .directory then none else some metadata.size }

/-- What the language says of texts. -/
structure FileTexts where
  byteLength : String → Nat
  toLowerCase : String → String
  includes : String → String → Bool

/-- `estimatedFileEntryBytes` (`files.ts:1540-1542`). -/
def FileTexts.estimatedFileEntryBytes (texts : FileTexts) (path : String) : Nat :=
  texts.byteLength path + 96

/-- `FILE_SCAN_PAGE_BYTES` (`files.ts:100`). -/
def fileScanPageBytes : Nat := 192 * 1024

/-- `FILE_DIRECTORY_PAGE_ITEMS` (`files.ts:101`). -/
def fileDirectoryPageItems : Nat := 128

/-- `FILE_SEARCH_PAGE_ITEMS` (`files.ts:102`). -/
def fileSearchPageItems : Nat := 512

/-- `FILE_SEARCH_PAGE_VISITS` (`files.ts:103`). -/
def fileSearchPageVisits : Nat := 8192

/-- `FILE_SCAN_MAX_SESSIONS` (`files.ts:105`). -/
def fileScanMaxSessions : Nat := 256

/-- What a turn of a page's loop comes to: it goes on, or the page is given, the last one perhaps, or it fails. -/
inductive ScanTurn (σ : Type) where
  | goes (scan : σ)
  | page (entries : List RelayFileEntry) (complete : Bool) (scan : σ)
  | fails (scan : σ)

/-- `DirectoryScan` (`files.ts:1443-1452`), with what the page that is read has so far. The handle is what it still has
to give. -/
structure DirectoryScan where
  directory : String
  handle : List Dirent
  pending : Option Dirent := none
  entries : List Dirent := []
  estimatedBytes : Nat := 0

namespace DirectoryScan

/-- The end of a page: `resolveDirectoryScanEntries` reads each of its entries (`files.ts:1572-1587`). -/
def finish (scan : DirectoryScan) (complete : Bool) : ScanTurn DirectoryScan :=
  let next := { scan with entries := [], estimatedBytes := 0 }
  match scan.entries.mapM (relayFileEntry scan.directory) with
  | some resolved => .page resolved complete next
  | none => .fails next

/-- A turn of `readDirectoryScanEntries` (`files.ts:1544-1570`). -/
def turn (texts : FileTexts) (scan : DirectoryScan) : ScanTurn DirectoryScan :=
  if fileDirectoryPageItems ≤ scan.entries.length then scan.finish false
  else
    match scan.pending.toList ++ scan.handle with
    | [] => { scan with pending := none }.finish true
    | entry :: handle =>
        let scan := { scan with pending := none, handle }
        if !supportedDirectoryEntry entry then .goes scan
        else
          let nextBytes := texts.estimatedFileEntryBytes (fileEntryPath scan.directory entry)
          if scan.entries ≠ [] ∧ fileScanPageBytes < scan.estimatedBytes + nextBytes then
            { scan with pending := some entry }.finish false
          else
            .goes { scan with
              entries := scan.entries ++ [entry]
              estimatedBytes := scan.estimatedBytes + nextBytes }

end DirectoryScan

/-- `SearchDirectory` (`files.ts:1454-1457`): what is at its path is what it holds, if it opens. -/
structure SearchDirectory where
  directory : String
  folder : Option (List Dirent)

/-- The folder a search is in (`files.ts:1460,1465`). Only such a folder's entry is ever pending. -/
structure SearchFolder where
  directory : String
  handle : List Dirent
  pending : Option Dirent := none

/-- `SearchScan` (`files.ts:1459-1470`), with what the page that is read has so far. -/
structure SearchScan where
  active : Option SearchFolder := none
  queryLower : String
  queue : List SearchDirectory
  entries : List RelayFileEntry := []
  estimatedBytes : Nat := 0
  visits : Nat := 0

namespace SearchScan

/-- The page as it is (`files.ts:1641-1648`). -/
def finish (scan : SearchScan) : ScanTurn SearchScan :=
  .page scan.entries (scan.active.isNone && scan.queue.isEmpty)
    { scan with entries := [], estimatedBytes := 0, visits := 0 }

/-- The page fails, and what it had is gone. -/
def fail (scan : SearchScan) : ScanTurn SearchScan :=
  .fails { scan with entries := [], estimatedBytes := 0, visits := 0 }

/-- Whether an entry is searched for (`files.ts:1615-1616`). -/
def matches_ (texts : FileTexts) (queryLower path : String) : Bool :=
  texts.includes (texts.toLowerCase path) queryLower

/-- The folders there are to open, with an entry that is one (`files.ts:1628-1633`). -/
def enqueue (scan : SearchScan) (path : String) (entry : Dirent) : List SearchDirectory :=
  if entry.kind = .directory then scan.queue ++ [⟨path, entry.folder⟩] else scan.queue

/-- What a search does with a supported entry of the folder it is in (`files.ts:1613-1638`). -/
def visit (texts : FileTexts) (scan : SearchScan) (folder : SearchFolder) (entry : Dirent) :
    ScanTurn SearchScan :=
  let path := fileEntryPath folder.directory entry
  let matches' := matches_ texts scan.queryLower path
  let nextBytes := texts.estimatedFileEntryBytes path
  if matches' = true ∧ scan.entries ≠ [] ∧ fileScanPageBytes < scan.estimatedBytes + nextBytes then
    { scan with active := some { folder with pending := some entry } }.finish
  else
    let scan := { scan with active := some folder, visits := scan.visits + 1, queue := scan.enqueue path entry }
    if matches' then
      match relayFileEntry folder.directory entry with
      | some found =>
          .goes { scan with
            entries := scan.entries ++ [found]
            estimatedBytes := scan.estimatedBytes + nextBytes }
      | none => scan.fail
    else .goes scan

/-- A turn of `readSearchScanPage` (`files.ts:1589-1639`), which opens a folder or reads an entry. -/
def turn (texts : FileTexts) (scan : SearchScan) : ScanTurn SearchScan :=
  if fileSearchPageItems ≤ scan.entries.length ∨ fileSearchPageVisits ≤ scan.visits then scan.finish
  else
    match scan.active with
    | none =>
        match scan.queue with
        | [] => scan.finish
        | next :: queue =>
            match next.folder with
            | none => { scan with queue }.fail
            | some handle => .goes { scan with queue, active := some ⟨next.directory, handle, none⟩ }
    | some folder =>
        match folder.pending.toList ++ folder.handle with
        | [] => .goes { scan with active := none }
        | entry :: handle =>
            let folder := { folder with pending := none, handle }
            if supportedDirectoryEntry entry then visit texts scan folder entry
            else .goes { scan with active := some folder }

end SearchScan

/-- A scan of either kind. -/
inductive FileScan where
  | directory (scan : DirectoryScan)
  | search (scan : SearchScan)

/-- What becomes of a turn as one of a scan of either kind. -/
def ScanTurn.map {σ τ : Type} (f : σ → τ) : ScanTurn σ → ScanTurn τ
  | goes scan => .goes (f scan)
  | page entries complete scan => .page entries complete (f scan)
  | fails scan => .fails (f scan)

def FileScan.turn (texts : FileTexts) : FileScan → ScanTurn FileScan
  | directory scan => (scan.turn texts).map directory
  | search scan => (scan.turn texts).map search

/-! ## Requests -/

/-- What a scan is of, which a request with its cursor has to name too. -/
inductive ScanSubject where
  | directory (instanceId directory : String)
  | search (instanceId query : String)
  deriving DecidableEq

def ScanSubject.isSearch : ScanSubject → Bool
  | directory .. => false
  | search .. => true

/-- A scan that is kept between its pages: whether a page is being read, and whether a caller has
    been given its cursor. -/
structure ScanSession where
  subject : ScanSubject
  scan : FileScan
  busy : Bool
  told : Bool

/-- The scans there are, and what became of each: what it started as, the pages it gave, whether one of them had no
cursor, and how many turns it took. -/
structure FileScans where
  scans : OrderedMap String ScanSession := .empty
  starts : String → Option FileScan := fun _ => none
  pages : String → List (List RelayFileEntry) := fun _ => []
  ended : String → Bool := fun _ => false
  turns : String → Nat := fun _ => 0

/-- A request, a turn of one that is being served, or a timer. -/
inductive ScanCall where
  /-- `directory` without a cursor, of a folder that opened. -/
  | list (id instanceId directory : String) (entries : List Dirent)
  /-- `search` without a cursor. -/
  | search (id instanceId query : String) (root : Option (List Dirent))
  /-- Either with a cursor. -/
  | ask (id : String) (subject : ScanSubject)
  | turn (id : String)
  /-- A scan nobody asked of for long. -/
  | expire (id : String)

namespace FileScans

/-- How many scans there are of a kind. -/
def count (world : FileScans) (search : Bool) : Nat :=
  world.scans.entries.countP fun entry => entry.2.subject.isSearch = search

/-- A scan begins, and its first page with it (`files.ts:267-304,425-446`). An ID is a new one. -/
def start (world : FileScans) (id : String) (subject : ScanSubject) (scan : FileScan) : Option FileScans :=
  if world.starts id = none ∧ world.count subject.isSearch < fileScanMaxSessions then
    some { world with
      scans := world.scans.set id { subject, scan, busy := true, told := false }
      starts := Function.update world.starts id (some scan) }
  else none

/-- What is left of a turn (`files.ts:316-347,456-473`). -/
def settle (world : FileScans) (id : String) (session : ScanSession) : ScanTurn FileScan → FileScans
  | .goes scan => { world with scans := world.scans.set id { session with scan } }
  | .page entries complete scan =>
      { world with
        scans :=
          if complete then world.scans.delete id
          else world.scans.set id { session with scan, busy := false, told := true }
        pages := Function.update world.pages id (world.pages id ++ [entries])
        ended := Function.update world.ended id complete }
  | .fails scan => { world with scans := world.scans.set id { session with scan, busy := false } }

/-- The step of a call. One that is refused changes nothing: a cursor that is unknown, of another scan, or being read
(`files.ts:253-266,306-312,413-424,448-454`). -/
def step (texts : FileTexts) (world : FileScans) : ScanCall → Option FileScans
  | .list id instanceId directory entries =>
      world.start id (.directory instanceId directory) (.directory { directory, handle := entries })
  | .search id instanceId query root =>
      world.start id (.search instanceId query)
        (.search { queryLower := texts.toLowerCase query, queue := [⟨"", root⟩] })
  | .ask id subject =>
      match world.scans.get id with
      | none => some world
      | some session =>
          if session.told = false then none
          else if session.subject ≠ subject ∨ session.busy = true then some world
          else some { world with scans := world.scans.set id { session with busy := true } }
  | .turn id =>
      match world.scans.get id with
      | none => none
      | some session =>
          if session.busy then
            some { world.settle id session (session.scan.turn texts) with
              turns := Function.update world.turns id (world.turns id + 1) }
          else none
  | .expire id => some { world with scans := world.scans.delete id }

end FileScans

/-- The runs of listings and searches. -/
def fileScanSystem (texts : FileTexts) : System FileScans ScanCall :=
  .ofFunction (· = {}) (FileScans.step texts)

end Kiln.Relay
