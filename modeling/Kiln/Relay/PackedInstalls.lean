import Mathlib
import Kiln.Relay.TransferInstalls

/-!
# What is packed is taken out

The zips that `archive` makes and `unarchive` takes (`apps/relay/src/files.ts:2200-2368`, `:2692-2790`,
`:2838-2849`), and with them what becomes of everything packed. What the zip writer stores of a name is its
own: a name that it changes is no longer the selected one.
-/

namespace Kiln.Relay
open Kiln.Lib FileForest Chosen List

variable {α : Type}

/-! ## Stored names -/

/-- A name's characters, its backslashes twice. -/
def nameWeight (name : List Char) : Nat := name.length + name.count backslash

/-- What the zip writer does to a name: it turns backslashes into slashes and leaves out drive letters,
leading and doubled slashes. A folder's name keeps the slash at its end while anything is left of it. -/
structure ShortensNames (stored : List Char → List Char) : Prop where
  less : ∀ name, stored name ≠ name → nameWeight (stored name) < nameWeight name
  folder : ∀ name, stored (name ++ ['/']) ≠ [] → (stored (name ++ ['/'])).getLast? = some '/'

theorem nameWeight_concat (name : List Char) : nameWeight (name ++ ['/']) = nameWeight name + 1 := by
  unfold nameWeight
  rw [length_append, count_append]
  have none' : count backslash ['/'] = 0 := by decide
  rw [none', length_singleton]
  omega

theorem nameWeight_trimSlashes (name : List Char) : nameWeight (trimSlashes name) ≤ nameWeight name := by
  have front : trimSlashes name <+: name := List.rdropWhile_prefix _ _
  exact Nat.add_le_add front.length_le (front.sublist.count_le _)

/-- An entry of a zip for a node. -/
def zippedFile (stored : List Char → List Char) (node : List (List Char) × Option (List α)) :
    ArchivedFile α :=
  let fileName := stored (archiveEntry [] node).givenName
  ⟨fileName, fileName.getLast? = some '/', node.2.getD []⟩

section Stored

variable {stored : List Char → List Char} {node : List (List Char) × Option (List α)}

theorem zippedFile_of_kept (some' : node.1 ≠ []) (named : Path.Named '/' node.1)
    (kept : stored (archiveEntry [] node).givenName = (archiveEntry [] node).givenName) :
    zippedFile stored node = packedFile node := by
  unfold zippedFile packedFile
  rw [kept]
  rcases node with ⟨names, _ | content⟩
  · simp [ArchiveEntry.givenName, archiveEntry]
  · rcases named.joined_last some' with ⟨front, last, is, other⟩
    dsimp only at is
    simp [ArchiveEntry.givenName, archiveEntry, is, other]

theorem zippedFile_lighter (shortens : ShortensNames stored) (safe : (zippedFile stored node).Safe) :
    nameWeight (zippedFile stored node).inspectedName + nameWeight (archiveEntry [] node).givenName ≤
      nameWeight (Path.joined '/' node.1) + nameWeight (stored (archiveEntry [] node).givenName) := by
  rcases node with ⟨names, _ | content⟩
  · have given : (archiveEntry [] (names, (none : Option (List α)))).givenName = Path.joined '/' names ++ ['/'] := rfl
    rw [given, nameWeight_concat]
    have filled : stored (Path.joined '/' names ++ ['/']) ≠ [] := by
      intro empty
      apply safe.1
      simp only [ArchivedFile.inspectedName, zippedFile, given, empty]
      rfl
    have slash := shortens.folder _ filled
    rcases getLast?_eq_some_iff.mp slash with ⟨front, is⟩
    have inspected : (zippedFile stored (names, (none : Option (List α)))).inspectedName = trimSlashes front := by
      simp only [ArchivedFile.inspectedName, zippedFile, given, slash, decide_true, if_true]
      rw [is, trimSlashes_concat]
    rw [inspected, is, nameWeight_concat]
    have lighter := nameWeight_trimSlashes front
    dsimp only
    omega
  · have given : (archiveEntry [] (names, some content)).givenName = Path.joined '/' names := rfl
    have lighter : nameWeight (zippedFile stored (names, some content)).inspectedName ≤
        nameWeight (stored (archiveEntry [] (names, some content)).givenName) := by
      unfold ArchivedFile.inspectedName
      split
      · exact nameWeight_trimSlashes _
      · exact Nat.le_refl _
    rw [given] at lighter ⊢
    dsimp only
    omega

/-- A name that is inspected is no heavier than the entry's own, and lighter where it was changed. -/
theorem zippedFile_weight (shortens : ShortensNames stored) (safe : (zippedFile stored node).Safe) :
    nameWeight (zippedFile stored node).inspectedName ≤ nameWeight (Path.joined '/' node.1) ∧
      (nameWeight (zippedFile stored node).inspectedName = nameWeight (Path.joined '/' node.1) →
        stored (archiveEntry [] node).givenName = (archiveEntry [] node).givenName) := by
  have lighter := zippedFile_lighter shortens safe
  by_cases kept : stored (archiveEntry [] node).givenName = (archiveEntry [] node).givenName
  · rw [kept] at lighter
    exact ⟨by omega, fun _ => kept⟩
  · have less := shortens.less _ kept
    exact ⟨by omega, fun same => by omega⟩

end Stored

theorem ArchivedFile.Safe.resolved {file : ArchivedFile α} (safe : file.Safe) :
    Path.joined '/' (resolveNames file.inspectedName) = file.inspectedName ∧ resolveNames file.inspectedName ≠ [] := by
  have all : resolveNames file.inspectedName = file.inspectedName.splitOn '/' := by
    apply filter_eq_self.mpr
    intro segment listed
    have kept := safe.2.2.2.2 segment listed
    simpa using ⟨kept.1, kept.2.1⟩
  rw [all]
  exact ⟨intercalate_splitOn '/', splitOn_ne_nil _ _⟩

/-! ## Zips -/

/-- A zip's files and folders are the selected ones, each under its selected name. -/
def Unarchived.Selects (files : FileForest (List Char) (List α)) (selected : List (List Char)) : Unarchived α → Prop
  | .folder tree => Relay.Selects files selected tree
  | .file path content => ∃ choice, selected = [choice] ∧
      (FileEntry.folder files).at? (resolveNames choice) = some (.file content) ∧
      basename path = basename choice

/-- Every selected file and folder, and all below them, is stored under the name that was given. -/
def StoredAsGiven (stored : List Char → List Char) (files : FileForest (List Char) (List α))
    (selected : List (List Char)) : Prop :=
  ∀ choice ∈ selected, ∀ below entry, (FileEntry.folder files).at? (resolveNames choice ++ below) = some entry →
      let given := (archiveEntry [] (basename choice :: below, entry.leaf)).givenName
      stored given = given

/-- One file is all that is selected. -/
def LoneFile (files : FileForest (List Char) (List α)) (selected : List (List Char)) : Prop :=
  ∃ choice content, selected = [choice] ∧ (FileEntry.folder files).at? (resolveNames choice) = some (.file content)

/-- A lone file is stored under a name that is accepted at the top of a zip, and the path that it is taken
out to ends in its name. -/
def LoneFileNamed (stored toLowerCase : List Char → List Char) (requestedDestination : List Char)
    (selected : List (List Char)) : Prop :=
  ∀ choice ∈ selected,
    let fileName := stored (basename choice)
    validateArchiveEntryPath fileName false [] = .ok fileName ∧ '/' ∉ fileName ∧
      basename (directUnarchiveDestination toLowerCase requestedDestination fileName) = basename choice

section Selection

variable {root : FilesRoot α} {selected : List (List Char)} {stored : List Char → List Char}
  {chosen : List (List Char × FileEntry (List Char) (List α))}

theorem Chosen.storedAsGiven (all : Forall₂ (Chosen root.files) selected chosen) :
    StoredAsGiven stored root.files selected ↔ ∀ node ∈ (ofEntries chosen).nodes,
      stored (archiveEntry [] node).givenName = (archiveEntry [] node).givenName := by
  constructor
  · rintro kept ⟨path, leaf⟩ listed
    rcases (mem_nodes all).mp listed with ⟨choice, member, below, entry, rfl, is, rfl⟩
    exact kept choice member below entry is
  · intro kept choice member below entry is
    exact kept (basename choice :: below, entry.leaf) ((mem_nodes all).mpr ⟨choice, member, below, entry, rfl, is, rfl⟩)

theorem Chosen.zipped_of_kept (all : Forall₂ (Chosen root.files) selected chosen)
    (kept : StoredAsGiven stored root.files selected) :
    (ofEntries chosen).nodes.map (zippedFile stored) = (ofEntries chosen).nodes.map packedFile := by
  apply map_congr_left
  intro node listed
  rcases nodes_ne_nil listed with ⟨name, path, is, -⟩
  exact zippedFile_of_kept (is ▸ cons_ne_nil _ _) (FilesRoot.Naming.named ((nodes_naming all).nodes listed))
    ((storedAsGiven all).mp kept node listed)

/-- Where the selected files and folders are what comes out of a zip, none of its names was changed. -/
theorem Chosen.storedAsGiven_of_selects (all : Forall₂ (Chosen root.files) selected chosen)
    (shortens : ShortensNames stored) {entries : List (ArchiveEntry α)}
    (inspected : inspectArchive ((ofEntries chosen).nodes.map (zippedFile stored)) = .ok entries)
    {tree : InstalledTree α} (extracted : extractEntries emptyFolder entries = .ok tree)
    (selects : Selects root.files selected tree) : StoredAsGiven stored root.files selected := by
  rcases inspectArchive_ok.mp inspected with ⟨safe, nodup, -, -, rfl⟩
  have resolved (node : List (List Char) × Option (List α)) (listed : node ∈ (ofEntries chosen).nodes) :=
    (safe _ (mem_map_of_mem listed)).resolved
  let taken (node : List (List Char) × Option (List α)) :=
    resolveNames (zippedFile stored node).inspectedName
  have distinct : ((ofEntries chosen).nodes.map taken).Nodup := by
    have names : (ofEntries chosen).nodes.map (Path.joined '/' ∘ taken) =
        (ofEntries chosen).nodes.map ((·.inspectedName) ∘ zippedFile stored) :=
      map_congr_left fun node listed => (resolved node listed).1
    rw [map_map] at nodup
    apply Nodup.of_map (Path.joined '/')
    rw [map_map, names]
    exact nodup
  have inside : (ofEntries chosen).nodes.map taken ⊆ (ofEntries chosen).nodes.map Prod.fst := by
    intro path listed
    rcases mem_map.mp listed with ⟨node, member, rfl⟩
    have held : (tree.get (taken node)).isSome := by
      unfold extractEntries at extracted
      split at extracted
      · rename_i after built
        rw [← Except.ok.inj extracted]
        exact FileTree.build_holds built (mem_map_of_mem (mem_map_of_mem (mem_map_of_mem member)))
      · cases extracted
    rcases Option.isSome_iff_exists.mp held with ⟨found, is⟩
    rcases (selects _ _).mp is with ⟨top, -⟩ | ⟨choice, choice', below, entry, path, there, -⟩
    · exact absurd top (resolved node member).2
    · exact mem_map.mpr ⟨(_, entry.leaf), (mem_nodes all).mpr ⟨choice, choice', below, entry, path, there, rfl⟩, rfl⟩
  -- As many paths, and each of them selected: the paths are the selected ones, so all weigh the same.
  have same := (subperm_of_subset distinct inside).perm_of_length_le (by rw [length_map, length_map])
  have sums := (same.map fun path => nameWeight (Path.joined '/' path)).sum_eq
  rw [map_map, map_map] at sums
  have weighs (node : List (List Char) × Option (List α)) (listed : node ∈ (ofEntries chosen).nodes) :
      nameWeight (Path.joined '/' (taken node)) ≤ nameWeight (Path.joined '/' node.1) ∧
        (nameWeight (Path.joined '/' (taken node)) = nameWeight (Path.joined '/' node.1) →
          stored (archiveEntry [] node).givenName = (archiveEntry [] node).givenName) := by
    rw [(resolved node listed).1]
    exact zippedFile_weight shortens (safe _ (mem_map_of_mem listed))
  rw [storedAsGiven all]
  intro node listed
  apply (weighs node listed).2
  by_contra changed
  have less := sum_lt_sum (fun node => nameWeight (Path.joined '/' (taken node)))
    (fun node => nameWeight (Path.joined '/' node.1)) (fun node listed => (weighs node listed).1)
    ⟨node, listed, lt_of_le_of_ne (weighs node listed).1 changed⟩
  exact absurd sums less.ne

theorem Chosen.loneFile_of_nodes (all : Forall₂ (Chosen root.files) selected chosen)
    {path : List (List Char)} {content : List α}
    (one : (ofEntries chosen).nodes = [(path, some content)]) :
    LoneFile root.files selected := by
  cases all with
  | nil => cases one
  | cons first rest =>
    rename_i choice top _ others
    rcases top with ⟨name, content' | children⟩
    · have later : (ofEntries others).nodes = [] := (List.cons.inj one).2
      cases rest with
      | nil => exact ⟨choice, content', rfl, first.2.2.2⟩
      | cons second _ =>
        rename_i top _ _ _
        rcases top with ⟨name', content'' | children⟩ <;> exact absurd later (cons_ne_nil _ _)
    · have top := (List.cons.inj one).1
      exact nomatch (Prod.ext_iff.mp top).2

theorem Chosen.zipped_loneFile (all : Forall₂ (Chosen root.files) selected chosen)
    {choice : List Char} {content : List α} (only : selected = [choice])
    (is : (FileEntry.folder root.files).at? (resolveNames choice) = some (.file content)) :
    (ofEntries chosen).nodes = [([basename choice], some content)] := by
  subst only
  cases all with
  | cons first rest =>
    cases rest
    rename_i top
    rcases top with ⟨name, entry⟩
    rcases first with ⟨rfl, -, -, is'⟩
    rw [is] at is'
    cases is'
    rfl

end Selection

section Extracts

variable {toLowerCase : List Char → List Char} {requestedDestination : List Char}
  {archive : List (ArchivedFile α)} {outcome : Unarchived α}

/-- An archive of one file at its top is taken out as that file, any other as a folder. -/
def RootFile (archive : List (ArchivedFile α)) (single : ArchivedFile α) : Prop :=
  archive = [single] ∧ ¬ (single.directory = true ∨ '/' ∈ single.fileName)

theorem extractZipArchive_ok : extractZipArchive toLowerCase requestedDestination archive = .ok outcome ↔
      ∃ entries, inspectArchive archive = .ok entries ∧ (((∀ single, ¬ RootFile archive single) ∧
            ∃ tree, extractEntries emptyFolder entries = .ok tree ∧ outcome = .folder tree) ∨
          ∃ single, RootFile archive single ∧
            outcome = .file (directUnarchiveDestination toLowerCase requestedDestination single.fileName)
              single.content) := by
  unfold extractZipArchive
  rw [bind_eq_ok]
  apply exists_congr
  intro entries
  apply and_congr_right
  intro _
  have folder {entries : List (ArchiveEntry α)} : ((do
      let tree ← extractEntries emptyFolder entries
      return Unarchived.folder tree) : Except FilesystemError (Unarchived α)) = .ok outcome ↔
      ∃ tree, extractEntries emptyFolder entries = .ok tree ∧ outcome = .folder tree := by
    rw [bind_eq_ok]
    exact exists_congr fun tree => and_congr_right fun _ => by rw [pure_eq_ok, eq_comm]
  split
  · rename_i single _
    split
    · rename_i aside
      rw [folder]
      constructor
      · intro taken
        refine Or.inl ⟨?_, taken⟩
        rintro other ⟨same, top⟩
        obtain rfl := (List.cons.inj same).1
        exact top aside
      · rintro (⟨-, taken⟩ | ⟨other, ⟨same, top⟩, -⟩)
        · exact taken
        · obtain rfl := (List.cons.inj same).1
          exact absurd aside top
    · rename_i top
      rw [pure_eq_ok]
      constructor
      · rintro rfl
        exact Or.inr ⟨single, ⟨rfl, top⟩, rfl⟩
      · rintro (⟨none', -⟩ | ⟨other, ⟨same, -⟩, rfl⟩)
        · exact absurd ⟨rfl, top⟩ (none' single)
        · rw [(List.cons.inj same).1]
  · rename_i many
    rw [folder]
    constructor
    · exact fun taken => Or.inl ⟨fun single root => many single root.1, taken⟩
    · rintro (⟨-, taken⟩ | ⟨single, root, -⟩)
      · exact taken
      · exact absurd root.1 (many single)

end Extracts

/-- When a zip that `archive` makes comes out of `unarchive` as what was selected. -/
def Unarchivable (stored toLowerCase : List Char → List Char) (requestedDestination : List Char)
    (files : FileForest (List Char) (List α)) (selected : List (List Char)) : Prop :=
  (LoneFile files selected → LoneFileNamed stored toLowerCase requestedDestination selected) ∧
    (¬ LoneFile files selected → PortableSelection files selected ∧ StoredAsGiven stored files selected)

section Zips

variable {stored toLowerCase : List Char → List Char} {requestedDestination : List Char}
  {root : FilesRoot α} {selected : List (List Char)}
  {chosen : List (List Char × FileEntry (List Char) (List α))}

theorem Chosen.unarchives_loneFile (all : Forall₂ (Chosen root.files) selected chosen) (shortens : ShortensNames stored)
    (small : ((ofEntries chosen).nodes.map (archiveEntry []) |>.map
      fun entry => (entry.content.getD []).length).sum ≤ maxTransferBytes)
    (lone : LoneFile root.files selected) :
    (∃ outcome, extractZipArchive toLowerCase requestedDestination
        ((ofEntries chosen).nodes.map (zippedFile stored)) = .ok outcome ∧
      outcome.Selects root.files selected) ↔
      LoneFileNamed stored toLowerCase requestedDestination selected := by
  rcases lone with ⟨choice, content, rfl, is⟩
  have nodes := zipped_loneFile all rfl is
  let fileName := stored (basename choice)
  let single : ArchivedFile α := ⟨fileName, fileName.getLast? = some '/', content⟩
  have archive : (ofEntries chosen).nodes.map (zippedFile stored) = [single] := by
    rw [nodes]
    simp [zippedFile, archiveEntry, ArchiveEntry.givenName, single, fileName]
  have file (apart : '/' ∉ fileName) : single.directory = false := by
    apply decide_eq_false
    exact fun last => apart (mem_of_getLast? last)
  have valid (apart : '/' ∉ fileName) : validateArchiveEntryPath fileName false [] = .ok fileName ↔ single.Safe := by
    have same := @validateArchiveEntryPath_ok α single [] fileName
    have name : single.inspectedName = fileName := by
      unfold ArchivedFile.inspectedName
      rw [file apart]
      rfl
    rw [file apart, name] at same
    exact same.trans ⟨fun accepted => accepted.1, fun safe => ⟨safe, not_mem_nil, rfl⟩⟩
  rw [archive]
  constructor
  · rintro ⟨outcome, taken, selects⟩
    rcases extractZipArchive_ok.mp taken with
      ⟨entries, inspected, ⟨none', tree, extracted, rfl⟩ | ⟨other, ⟨same, top⟩, rfl⟩⟩
    · -- As a folder, the file would have its own name, and that has no slash.
      rw [← archive] at inspected
      have kept := (storedAsGiven all).mp (storedAsGiven_of_selects all shortens inspected extracted selects)
        ([basename choice], some content) (by rw [nodes]; exact mem_cons_self)
      have given : (archiveEntry [] ([basename choice], some content)).givenName = basename choice := by
        simp [archiveEntry, ArchiveEntry.givenName]
      rw [given] at kept
      have apart : '/' ∉ fileName := by
        show '/' ∉ stored (basename choice)
        rw [kept]
        exact (eq_append_basename choice).1
      refine absurd ⟨rfl, ?_⟩ (none' single)
      rintro (directory | slash)
      · rw [file apart] at directory
        cases directory
      · exact apart slash
    · obtain rfl := (List.cons.inj same).1
      rcases selects with ⟨choice', only, -, named⟩
      obtain rfl := (List.cons.inj only).1
      have apart : '/' ∉ fileName := fun slash => top (Or.inr slash)
      intro other listed
      obtain rfl := mem_singleton.mp listed
      refine ⟨(valid apart).mpr ?_, apart, named⟩
      exact (inspectArchive_ok.mp inspected).1 single mem_cons_self
  · intro named
    rcases named choice mem_cons_self with ⟨accepted, apart, own⟩
    have safe := (valid apart).mp accepted
    rw [nodes] at small
    have inspected : inspectArchive [single] = .ok [single.inspected] := by
      apply inspectArchive_ok.mpr
      refine ⟨?_, nodup_singleton _, by show 1 ≤ 50000; omega, ?_, rfl⟩
      · intro file listed
        exact mem_singleton.mp listed ▸ safe
      · simpa [archiveEntry, single] using small
    refine ⟨_, extractZipArchive_ok.mpr ⟨_, inspected, Or.inr ⟨single, ⟨rfl, ?_⟩, rfl⟩⟩, ?_⟩
    · rintro (directory | slash)
      · rw [file apart] at directory
        cases directory
      · exact apart slash
    · exact ⟨choice, rfl, is, own⟩

theorem Chosen.unarchives_folder (all : Forall₂ (Chosen root.files) selected chosen)
    (shortens : ShortensNames stored) (few : (ofEntries chosen).nodes.length ≤ maxArchiveItems)
    (small : ((ofEntries chosen).nodes.map (archiveEntry []) |>.map
      fun entry => (entry.content.getD []).length).sum ≤ maxTransferBytes)
    (more : ¬ LoneFile root.files selected) :
    (∃ outcome, extractZipArchive toLowerCase requestedDestination
        ((ofEntries chosen).nodes.map (zippedFile stored)) = .ok outcome ∧
      outcome.Selects root.files selected) ↔
      PortableSelection root.files selected ∧ StoredAsGiven stored root.files selected := by
  constructor
  · rintro ⟨outcome, taken, selects⟩
    rcases extractZipArchive_ok.mp taken with
      ⟨entries, inspected, ⟨-, tree, extracted, rfl⟩ | ⟨single, -, rfl⟩⟩
    · have kept := storedAsGiven_of_selects all shortens inspected extracted selects
      refine ⟨?_, kept⟩
      rw [zipped_of_kept all kept] at inspected
      rcases (inspectArchive_packed (nodes_naming all) few small).mp inspected with
        ⟨portable, distinct, -⟩
      exact (Chosen.portable all).mpr ⟨portable, distinct⟩
    · rcases selects with ⟨choice, only, is, -⟩
      exact absurd ⟨choice, _, only, is⟩ more
  · rintro ⟨portable, kept⟩
    rw [zipped_of_kept all kept]
    have vacant (path : List (List Char)) :
        (emptyFolder : InstalledTree α).get path = if path = [] then some .folder else none := by
      rw [emptyFolder, OrderedMap.get_set, OrderedMap.get_empty]
      simp [eq_comm]
    rcases (Chosen.portable all).mp portable with ⟨names, distinct⟩
    rcases Chosen.selects all portable vacant with ⟨tree, extracted, selects⟩
    have inspected := (inspectArchive_packed (nodes_naming all) few small).mpr ⟨names, distinct, rfl⟩
    refine ⟨.folder tree, extractZipArchive_ok.mpr ⟨_, inspected, Or.inl ⟨?_, tree, extracted, rfl⟩⟩, selects⟩
    rintro single ⟨same, top⟩
    rcases map_eq_singleton_iff.mp same with ⟨⟨path, _ | content⟩, one, rfl⟩
    · exact top (Or.inl rfl)
    · exact more (loneFile_of_nodes all one)

/-- A zip comes out as what was selected where it is unarchivable, and nowhere else. -/
theorem extractZipArchive_iff (shortens : ShortensNames stored) {paths : List (List Char)}
    {archive : List (ArchivedFile α)} (packed : archiveFiles stored root.files paths = .ok archive) :
    (∃ outcome, extractZipArchive toLowerCase requestedDestination archive = .ok outcome ∧
      outcome.Selects root.files (distinctMutationPaths paths)) ↔
      Unarchivable stored toLowerCase requestedDestination root.files (distinctMutationPaths paths) := by
  rcases bind_eq_ok.mp packed with ⟨entries, collected, is⟩
  obtain rfl := pure_eq_ok.mp is
  rcases collectArchiveEntries_ok collected with ⟨chosen, all, rfl, few, small⟩
  have written : writeZipArchive stored ((ofEntries chosen).nodes.map (archiveEntry [])) =
      (ofEntries chosen).nodes.map (zippedFile stored) := by
    rw [writeZipArchive, map_map]
    rfl
  rw [length_map] at few
  rw [written, Unarchivable]
  by_cases lone : LoneFile root.files (distinctMutationPaths paths)
  · rw [unarchives_loneFile all shortens small lone]
    exact ⟨fun named => ⟨fun _ => named, fun more => absurd lone more⟩, fun both => both.1 lone⟩
  · rw [unarchives_folder all shortens few small lone]
    exact ⟨fun kept => ⟨fun alone => absurd alone lone, fun _ => kept⟩, fun both => both.2 lone⟩

end Zips

/-- Whatever is packed is taken out as what was selected, where the selected names, and all below them, are
distinct, have no backslash and are stored as they are: a transfer's archive in a missing or empty folder,
and a zip where nothing is at its destination. -/
theorem packed_installs_iff {stored : List Char → List Char} (shortens : ShortensNames stored)
    (toLowerCase : List Char → List Char) (requestedDestination : List Char) (root : FilesRoot α)
    (paths : List (List Char)) {destination : TransferDestination α} (vacant : destination.Vacant) :
    (∀ archive, packTransferArchive root.files paths = .ok archive →
      ((∃ tree, installTransferTree destination archive = .ok tree ∧
        Selects root.files (selectedPaths root.files paths) tree) ↔
          PortableSelection root.files (selectedPaths root.files paths))) ∧
      ∀ archive, archiveFiles stored root.files paths = .ok archive →
        ((∃ outcome, extractZipArchive toLowerCase requestedDestination archive = .ok outcome ∧
          outcome.Selects root.files (distinctMutationPaths paths)) ↔
            Unarchivable stored toLowerCase requestedDestination root.files
              (distinctMutationPaths paths)) :=
  ⟨fun _ packed => installTransferTree_iff packed vacant,
    fun _ packed => extractZipArchive_iff shortens packed⟩

/-- Two folders, each with a file of one name. -/
def twoFolders : FilesRoot Nat where
  files := .folder "a".toList (.file "x".toList [1] .nil) (.folder "b".toList (.file "x".toList [2] .nil) .nil)
  distinct := ⟨by decide, ⟨by decide, trivial⟩, by decide, ⟨by decide, trivial⟩, trivial⟩
  named := ⟨by decide, ⟨by decide, trivial⟩, by decide, ⟨by decide, trivial⟩, trivial⟩

theorem shortensNames_id : ShortensNames id where
  less _ changed := absurd rfl changed
  folder _ _ := getLast?_concat

/-- Both files pack, under one name, and never install. -/
theorem packed_never_installs : ∃ archive,
    packTransferArchive twoFolders.files ["a/x".toList, "b/x".toList] = .ok archive ∧
      installTransferTree .missing archive = .error
        ⟨"duplicate_archive_path", "mutation.unarchive", "The archive contains duplicate paths"⟩ :=
  ⟨[⟨"x".toList, false, [1]⟩, ⟨"x".toList, false, [2]⟩], by decide, by decide⟩

theorem packed_installs_iff_folder :
    (∃ archive, packTransferArchive twoFolders.files ["b".toList] = .ok archive ∧
      ((∃ tree, installTransferTree .missing archive = .ok tree ∧
        Selects twoFolders.files (selectedPaths twoFolders.files ["b".toList]) tree) ↔
          PortableSelection twoFolders.files (selectedPaths twoFolders.files ["b".toList]))) ∧
      ∃ archive, archiveFiles id twoFolders.files ["b".toList] = .ok archive ∧
        ((∃ outcome, extractZipArchive id "out".toList archive = .ok outcome ∧
          outcome.Selects twoFolders.files (distinctMutationPaths ["b".toList])) ↔
            Unarchivable id id "out".toList twoFolders.files (distinctMutationPaths ["b".toList])) :=
  have installs := packed_installs_iff shortensNames_id id "out".toList twoFolders ["b".toList]
    (show TransferDestination.Vacant .missing from trivial)
  ⟨⟨[⟨"b/".toList, true, []⟩, ⟨"b/x".toList, false, [2]⟩], by decide, installs.1 _ (by decide)⟩,
    ⟨[⟨"b/".toList, true, []⟩, ⟨"b/x".toList, false, [2]⟩], by decide, installs.2 _ (by decide)⟩⟩

end Kiln.Relay
