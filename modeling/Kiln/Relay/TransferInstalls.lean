import Kiln.Relay.TransferPacking

/-!
# What a transfer packs, installed

A tar archive packed from a root and installed into an empty folder (`apps/relay/src/files.ts:940-1010`,
`:3080-3207`, `:3222-3295`), and a zip made by `archive` and taken by `unarchive` (`:2200-2368`, `:2692-2732`).
Packing names an entry by the last segment of its selected path and lets any name through. Inspection wants
each name once and without backslashes, so the two agree where the selected names do.
-/

namespace Kiln.Relay
open Kiln.Lib FileForest List

variable {α : Type}

/-! ## What was chosen -/

section Chosen

variable {files : FileForest (List Char) (List α)} {selected : List (List Char)}
  {chosen : List (List Char × FileEntry (List Char) (List α))}

theorem Chosen.names (all : Forall₂ (Chosen files) selected chosen) : chosen.map Prod.fst = selected.map basename := by
  induction all with
  | nil => rfl
  | cons first _ ih => rw [map_cons, map_cons, ih, first.1]

theorem Chosen.mem (all : Forall₂ (Chosen files) selected chosen) {name : List Char}
    {entry : FileEntry (List Char) (List α)} : (name, entry) ∈ chosen ↔ ∃ choice ∈ selected, basename choice = name ∧
        (FileEntry.folder files).at? (resolveNames choice) = some entry := by
  induction all with
  | nil => simp
  | cons first _ ih =>
    rename_i choice one _ _ _
    rcases one with ⟨name', entry'⟩
    rcases first with ⟨rfl, -, -, is⟩
    dsimp only at is
    rw [mem_cons, ih, Prod.mk.injEq, eq_comm, eq_comm (b := entry')]
    simp only [mem_cons, or_and_right, exists_or, exists_eq_left, is, Option.some.injEq]

theorem Chosen.naming (all : Forall₂ (Chosen files) selected chosen) : ∀ one ∈ chosen, FilesRoot.Naming one.1 := by
  induction all with
  | nil => exact fun _ listed => nomatch listed
  | cons first _ ih => exact forall_mem_cons.mpr ⟨first.1 ▸ first.2.1, ih⟩

theorem Chosen.at? (all : Forall₂ (Chosen files) selected chosen)
    (distinct : (selected.map basename).Nodup) {name : List Char} {below : List (List Char)}
    {entry : FileEntry (List Char) (List α)} :
    (FileEntry.folder (ofEntries chosen)).at? (name :: below) = some entry ↔
      ∃ choice ∈ selected, basename choice = name ∧
        (FileEntry.folder files).at? (resolveNames choice ++ below) = some entry := by
  rw [← Chosen.names all] at distinct
  simp only [FileEntry.at?, Option.bind_eq_some_iff, find_ofEntries distinct, Chosen.mem all, FileEntry.at?_append]
  constructor
  · rintro ⟨top, ⟨choice, listed, named, is⟩, below⟩
    exact ⟨choice, listed, named, top, is, below⟩
  · rintro ⟨choice, listed, named, top, is, below⟩
    exact ⟨top, ⟨choice, listed, named, is⟩, below⟩

end Chosen

theorem naming_of_isFileName {name : List Char} (named : IsFileName name) : FilesRoot.Naming name :=
  ⟨named.1, named.2.1, named.2.2.1, named.2.2.2.2⟩

variable {root : FilesRoot α}

theorem Chosen.nodes_naming {selected : List (List Char)} {chosen : List (List Char × FileEntry (List Char) (List α))}
    (all : Forall₂ (Chosen root.files) selected chosen) :
    (ofEntries chosen).AllNames FilesRoot.Naming := by
  rw [allNames_ofEntries]
  rintro ⟨name, entry⟩ listed
  refine ⟨Chosen.naming all _ listed, ?_⟩
  rcases (Chosen.mem all).mp listed with ⟨choice, -, -, is⟩
  have inside : (FileEntry.folder root.files).AllNames FilesRoot.Naming :=
    root.named.imp fun _ => naming_of_isFileName
  exact FileEntry.AllNames.of_at? inside is

theorem Chosen.distinct {selected : List (List Char)} {chosen : List (List Char × FileEntry (List Char) (List α))}
    (all : Forall₂ (Chosen root.files) selected chosen) :
    (ofEntries chosen).Distinct ↔ (selected.map basename).Nodup := by
  rw [distinct_ofEntries, Chosen.names all, and_iff_left]
  rintro ⟨name, entry⟩ listed
  rcases (Chosen.mem all).mp listed with ⟨choice, -, -, is⟩
  have inside : (FileEntry.folder root.files).Distinct := root.distinct
  exact FileEntry.Distinct.of_at? inside is

/-! ## Inspecting what was packed -/

/-- A name that inspection lets through, of those that entries have. -/
def Portable (name : List Char) : Prop := name ≠ ".".toList ∧ backslash ∉ name

theorem FilesRoot.Naming.named {names : List (List Char)} (named : ∀ name ∈ names, Naming name) :
    Path.Named '/' names :=
  fun name listed => ⟨(named name listed).1, (named name listed).2.1⟩

theorem not_mem_joined {names : List (List Char)} {c : Char} (other : c ≠ '/') :
    c ∉ Path.joined '/' names ↔ ∀ name ∈ names, c ∉ name := by
  induction names with
  | nil => simp
  | cons name rest ih =>
    cases rest with
    | nil => simp
    | cons next later =>
      rw [Path.joined_cons_cons, mem_append, mem_cons, forall_mem_cons, ← ih]
      simp [other]

/-- An entry of a tar archive for a node. -/
def packedFile (node : List (List Char) × Option (List α)) : ArchivedFile α :=
  ⟨(archiveEntry [] node).givenName, node.2.isNone, node.2.getD []⟩

section Node

variable {node : List (List Char) × Option (List α)}

theorem packedFile_inspectedName (some' : node.1 ≠ []) (named : Path.Named '/' node.1) :
    (packedFile node).inspectedName = Path.joined '/' node.1 := by
  rcases node with ⟨names, leaf⟩
  cases leaf with
  | some content => rfl
  | none => exact (trimSlashes_concat _).trans (trimSlashes_joined named some')

theorem packedFile_inspected (some' : node.1 ≠ []) (named : Path.Named '/' node.1) :
    (packedFile node).inspected = archiveEntry [] node := by
  have name := packedFile_inspectedName some' named
  rcases node with ⟨names, leaf⟩
  cases leaf <;> exact congrArg (ArchiveEntry.mk · _) name

theorem packedFile_safe (some' : node.1 ≠ []) (named : ∀ name ∈ node.1, FilesRoot.Naming name) :
    (packedFile node).Safe ↔ ∀ name ∈ node.1, Portable name := by
  have paths := FilesRoot.Naming.named named
  have given (c : Char) (other : c ≠ '/') : c ∉ (packedFile node).fileName ↔ ∀ name ∈ node.1, c ∉ name := by
    rw [← not_mem_joined other]
    rcases node with ⟨names, leaf⟩
    cases leaf with
    | some content => rfl
    | none => exact ⟨fun absent inside => absent (mem_append_left _ inside), fun absent inside =>
        (mem_append.mp inside).elim absent fun slash => other (mem_singleton.mp slash)⟩
  rcases paths.joined_first some' with ⟨first, rest, is, other⟩
  have head : (packedFile node).fileName.head? ≠ some '/' := by
    have begins : (packedFile node).fileName.head? = some first := by
      rcases node with ⟨names, leaf⟩
      dsimp only at is
      cases leaf <;> simp [packedFile, archiveEntry, ArchiveEntry.givenName, is]
    rw [begins]
    exact fun same => other (Option.some.inj same)
  have filled : Path.joined '/' node.1 ≠ [] := is ▸ cons_ne_nil _ _
  unfold ArchivedFile.Safe
  rw [given backslash (by decide), given nulChar (by decide),
    packedFile_inspectedName some' paths, Path.splitOn_joined '/' (fun name listed =>
      (named name listed).2.1) some']
  constructor
  · rintro ⟨-, noBackslash, -, -, segments⟩ name listed
    exact ⟨(segments name listed).2.1, noBackslash name listed⟩
  · intro portable
    refine ⟨filled, fun name listed => (portable name listed).2,
      fun name listed => (named name listed).2.2.1, head, fun name listed => ?_⟩
    exact ⟨(named name listed).1, (portable name listed).1, (named name listed).2.2.2⟩

end Node

section Packed

variable {forest : FileForest (List Char) (List α)}

/-- What was packed is accepted exactly where its names are portable and its paths distinct. -/
theorem inspectArchive_packed (named : forest.AllNames FilesRoot.Naming) (few : forest.nodes.length ≤ maxArchiveItems)
    (small : ((forest.nodes.map (archiveEntry [])).map
      fun entry => (entry.content.getD []).length).sum ≤ maxTransferBytes)
    {entries : List (ArchiveEntry α)} :
    inspectArchive (forest.nodes.map packedFile) = .ok entries ↔
      (∀ node ∈ forest.nodes, ∀ name ∈ node.1, Portable name) ∧
        (forest.nodes.map Prod.fst).Nodup ∧ entries = forest.nodes.map (archiveEntry []) := by
  have some' (node : List (List Char) × Option (List α)) (listed : node ∈ forest.nodes) : node.1 ≠ [] := by
    rcases nodes_ne_nil listed with ⟨name, path, is, -⟩
    exact is ▸ cons_ne_nil _ _
  have paths (node : List (List Char) × Option (List α)) (listed : node ∈ forest.nodes) :
      Path.Named '/' node.1 := FilesRoot.Naming.named (named.nodes listed)
  have names : (forest.nodes.map packedFile).map (·.inspectedName) =
      (forest.nodes.map Prod.fst).map (Path.joined '/') := by
    rw [map_map, map_map]
    exact map_congr_left fun node listed =>
      packedFile_inspectedName (some' node listed) (paths node listed)
  have inspected : (forest.nodes.map packedFile).map (·.inspected) = forest.nodes.map (archiveEntry []) := by
    rw [map_map]
    exact map_congr_left fun node listed =>
      packedFile_inspected (some' node listed) (paths node listed)
  have total : ((forest.nodes.map packedFile).map (·.content.length)).sum ≤ maxTransferBytes := by
    rw [map_map] at small ⊢
    exact small
  have apart : ((forest.nodes.map Prod.fst).map (Path.joined '/')).Nodup ↔ (forest.nodes.map Prod.fst).Nodup := by
    refine ⟨Nodup.of_map _, Nodup.map_on ?_⟩
    intro path listed path' listed' same
    rcases mem_map.mp listed with ⟨node, member, rfl⟩
    rcases mem_map.mp listed' with ⟨node', member', rfl⟩
    exact (paths node member).joined_injective (paths node' member') same
  rw [inspectArchive_ok, names, inspected, apart, length_map]
  constructor
  · rintro ⟨safe, distinct, -, -, is⟩
    refine ⟨fun node listed => ?_, distinct, is⟩
    exact (packedFile_safe (some' node listed) (named.nodes listed)).mp (safe _ (mem_map_of_mem listed))
  · rintro ⟨portable, distinct, is⟩
    refine ⟨fun file listed => ?_, distinct, few, total, is⟩
    rcases mem_map.mp listed with ⟨node, member, rfl⟩
    exact (packedFile_safe (some' node member) (named.nodes member)).mpr (portable node member)

theorem extractEntries_packed (distinct : forest.Distinct) (named : forest.AllNames FilesRoot.Naming)
    (portable : ∀ node ∈ forest.nodes, ∀ name ∈ node.1, Portable name) {tree : InstalledTree α}
    (vacant : ∀ path, tree.get path = if path = [] then some .folder else none) :
    ∃ after, extractEntries tree (forest.nodes.map (archiveEntry [])) = .ok after ∧
      ∀ path, after.get path = if path = [] then some .folder
        else ((FileEntry.folder forest).at? path).map FileEntry.node := by
  have resolved : (forest.nodes.map (archiveEntry [])).map
      (fun entry => (resolveNames entry.name, entry.content)) = forest.nodes.map (Prod.map ([] ++ ·) id) := by
    rw [map_map]
    apply map_congr_left
    intro node listed
    refine Prod.ext ?_ rfl
    exact resolveNames_joined (FilesRoot.Naming.named (named.nodes listed))
      fun name inside => (portable node listed name inside).1
  rcases FileTree.build_nodes distinct [] (fun _ listed => nomatch listed) (vacant [])
    (fun name _ path => vacant (name :: path)) with ⟨after, built, holds, keeps⟩
  refine ⟨after, ?_, fun path => ?_⟩
  · rw [extractEntries, resolved, built]
  by_cases top : path = []
  · rw [if_pos top, keeps path, vacant, if_pos top]
    rintro below entry some' rfl
    exact absurd top some'
  rw [if_neg top]
  cases is : (FileEntry.folder forest).at? path with
  | some entry => exact holds path entry top is
  | none =>
    rw [keeps path, vacant, if_neg top]
    · rfl
    · rintro below entry - rfl found
      rw [found] at is
      cases is

end Packed

/-! ## Transfers -/

/-- The selected names, and all names below them, are distinct and portable. -/
def PortableSelection (files : FileForest (List Char) (List α)) (selected : List (List Char)) : Prop :=
  (selected.map basename).Nodup ∧ ∀ choice ∈ selected, ∀ below entry,
      (FileEntry.folder files).at? (resolveNames choice ++ below) = some entry →
        ∀ name ∈ basename choice :: below, Portable name

section Selection

variable {root : FilesRoot α} {selected : List (List Char)} {chosen : List (List Char × FileEntry (List Char) (List α))}

theorem Chosen.mem_nodes (all : Forall₂ (Chosen root.files) selected chosen)
    {path : List (List Char)} {leaf : Option (List α)} :
    (path, leaf) ∈ (ofEntries chosen).nodes ↔ ∃ choice ∈ selected, ∃ below entry, path = basename choice :: below ∧
        (FileEntry.folder root.files).at? (resolveNames choice ++ below) = some entry ∧
        entry.leaf = leaf := by
  have distinct : ∀ one ∈ chosen, one.2.Distinct := by
    rintro ⟨name, entry⟩ listed
    rcases (Chosen.mem all).mp listed with ⟨choice, -, -, is⟩
    have inside : (FileEntry.folder root.files).Distinct := root.distinct
    exact FileEntry.Distinct.of_at? inside is
  rw [mem_nodes_ofEntries distinct]
  constructor
  · rintro ⟨⟨name, top⟩, listed, below, entry, rfl, is, leaf⟩
    rcases (Chosen.mem all).mp listed with ⟨choice, member, rfl, found⟩
    refine ⟨choice, member, below, entry, rfl, ?_, leaf⟩
    rw [FileEntry.at?_append, found]
    exact is
  · rintro ⟨choice, member, below, entry, rfl, is, leaf⟩
    rw [FileEntry.at?_append] at is
    rcases Option.bind_eq_some_iff.mp is with ⟨top, found, is⟩
    exact ⟨(basename choice, top), (Chosen.mem all).mpr ⟨choice, member, rfl, found⟩, below, entry,
      rfl, is, leaf⟩

theorem Chosen.portable (all : Forall₂ (Chosen root.files) selected chosen) :
    PortableSelection root.files selected ↔ (∀ node ∈ (ofEntries chosen).nodes, ∀ name ∈ node.1, Portable name) ∧
        ((ofEntries chosen).nodes.map Prod.fst).Nodup := by
  have distinct : ((ofEntries chosen).nodes.map Prod.fst).Nodup ↔ (selected.map basename).Nodup := by
    constructor
    · intro nodup
      have names := nodup_names nodup
      rwa [names_ofEntries, Chosen.names all] at names
    · exact fun nodup => nodup_nodes ((Chosen.distinct all).mpr nodup)
  rw [PortableSelection, distinct, and_comm, and_congr_left_iff]
  intro _
  constructor
  · rintro portable ⟨path, leaf⟩ listed
    rcases (Chosen.mem_nodes all).mp listed with ⟨choice, member, below, entry, rfl, is, -⟩
    exact portable choice member below entry is
  · intro portable choice member below entry is
    exact portable (basename choice :: below, entry.leaf)
      ((Chosen.mem_nodes all).mpr ⟨choice, member, below, entry, rfl, is, rfl⟩)

theorem Chosen.selects (all : Forall₂ (Chosen root.files) selected chosen)
    (portable : PortableSelection root.files selected) {tree : InstalledTree α}
    (vacant : ∀ path, tree.get path = if path = [] then some .folder else none) :
    ∃ after, extractEntries tree ((ofEntries chosen).nodes.map (archiveEntry [])) = .ok after ∧
      Selects root.files selected after := by
  rcases extractEntries_packed ((Chosen.distinct all).mpr portable.1) (Chosen.nodes_naming all)
    ((Chosen.portable all).mp portable).1 vacant with ⟨after, extracted, holds⟩
  refine ⟨after, extracted, fun path node => ?_⟩
  rw [holds]
  cases path with
  | nil =>
    simp only [reduceCtorEq, if_true, true_and, false_and, exists_false, and_false, or_false, Option.some.injEq]
    exact eq_comm
  | cons name below =>
    simp only [reduceCtorEq, if_false, false_and, false_or, Option.map_eq_some_iff,
      Chosen.at? all portable.1, List.cons.injEq]
    constructor
    · rintro ⟨entry, ⟨choice, member, rfl, is⟩, rfl⟩
      exact ⟨choice, member, below, entry, ⟨rfl, rfl⟩, is, rfl⟩
    · rintro ⟨choice, member, below', entry, ⟨rfl, rfl⟩, is, rfl⟩
      exact ⟨entry, ⟨choice, member, rfl, is⟩, rfl⟩

end Selection

theorem installTransferTree_vacant {destination : TransferDestination α} (vacant : destination.Vacant) :
    ∃ tree : InstalledTree α, (∀ path, tree.get path = if path = [] then some .folder else none) ∧
      ∀ archive, installTransferTree destination archive = (inspectArchive archive).bind (extractEntries tree) := by
  cases destination with
  | missing =>
    refine ⟨emptyFolder, fun path => ?_, fun archive => rfl⟩
    rw [emptyFolder, OrderedMap.get_set, OrderedMap.get_empty]
    simp [eq_comm]
  | folder tree =>
    refine ⟨tree, vacant, fun archive => ?_⟩
    have nothing : (tree.entries.any fun entry => entry.1 ≠ []) = false := by
      rw [any_eq_false]
      rintro ⟨path, node⟩ listed
      have held := vacant path
      rw [OrderedMap.get_eq_some.mpr listed] at held
      by_cases top : path = []
      · simpa using top
      · rw [if_neg top] at held
        cases held
    unfold installTransferTree
    cases inspectArchive archive with
    | error error => rfl
    | ok entries => exact if_neg (Bool.eq_false_iff.mp nothing)
  | other => exact vacant.elim

theorem installTransferTree_iff {paths : List (List Char)} {archive : List (ArchivedFile α)}
    (packed : packTransferArchive root.files paths = .ok archive)
    {destination : TransferDestination α} (vacant : destination.Vacant) :
    (∃ tree, installTransferTree destination archive = .ok tree ∧
      Selects root.files (selectedPaths root.files paths) tree) ↔
      PortableSelection root.files (selectedPaths root.files paths) := by
  rcases bind_eq_ok.mp packed with ⟨entries, collected, is⟩
  obtain rfl := pure_eq_ok.mp is
  rcases collectArchiveEntries_ok collected with ⟨chosen, all, rfl, few, small⟩
  rcases installTransferTree_vacant vacant with ⟨tree, empty', installs⟩
  have written : writeTransferArchive ((ofEntries chosen).nodes.map (archiveEntry [])) =
      (ofEntries chosen).nodes.map packedFile := by
    rw [writeTransferArchive, map_map]
    rfl
  rw [length_map] at few
  rw [installs, written]
  constructor
  · rintro ⟨after, installed, -⟩
    rcases bind_eq_ok.mp installed with ⟨entries, inspected, -⟩
    rcases (inspectArchive_packed (Chosen.nodes_naming all) few small).mp inspected with
      ⟨portable, distinct, -⟩
    exact (Chosen.portable all).mpr ⟨portable, distinct⟩
  · intro portable
    rcases (Chosen.portable all).mp portable with ⟨names, distinct⟩
    rcases Chosen.selects all portable empty' with ⟨after, extracted, selects⟩
    refine ⟨after, bind_eq_ok.mpr ⟨_, ?_, extracted⟩, selects⟩
    exact (inspectArchive_packed (Chosen.nodes_naming all) few small).mpr ⟨names, distinct, rfl⟩

end Kiln.Relay
