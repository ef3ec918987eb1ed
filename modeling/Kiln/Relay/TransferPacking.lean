import Kiln.Lib.Reader
import Kiln.Relay.TransferArchives

/-!
# What an archive is made of

Collecting the entries of an archive (`apps/relay/src/files.ts:2134-2198`) walks the forest of what was
selected, each file and folder named by the last segment of its selected path. What `inspectTarGzArchive` and
`extractZipArchive` accept of an archive (`:2301-2345`, `:2448-2520`, `:2763-2790`).
-/

namespace Kiln.Relay
open Kiln.Lib FileForest List

/-! ## Paths -/

theorem trimSlashes_concat (path : List Char) : trimSlashes (path ++ ['/']) = trimSlashes path :=
  rdropWhile_concat_pos _ _ _ (by simp)

variable {names : List (List Char)}

theorem trimSlashes_joined (named : Path.Named '/' names) (some' : names ≠ []) :
    trimSlashes (Path.joined '/' names) = Path.joined '/' names := by
  rcases named.joined_last some' with ⟨front, last, is, other⟩
  rw [is]
  exact rdropWhile_concat_neg _ _ _ (by simpa using other)

/-- A path is what is left of it without the slashes at its end, and they. -/
theorem eq_trimSlashes_append (path : List Char) : ∃ count, path = trimSlashes path ++ replicate count '/' := by
  induction path using reverseRecOn with
  | nil => exact ⟨0, rfl⟩
  | append_singleton front last ih =>
    by_cases slash : last = '/'
    · rcases ih with ⟨count, is⟩
      refine ⟨count + 1, ?_⟩
      rw [slash, trimSlashes_concat, replicate_succ', ← append_assoc, ← is]
    · refine ⟨0, ?_⟩
      have kept : trimSlashes (front ++ [last]) = front ++ [last] :=
        rdropWhile_concat_neg _ _ _ (by simpa using slash)
      rw [kept, replicate_zero, append_nil]

theorem resolveNames_trimSlashes (path : List Char) : resolveNames (trimSlashes path) = resolveNames path := by
  have added (front : List Char) (count : Nat) : resolveNames (front ++ replicate count '/') = resolveNames front := by
    induction count with
    | zero => rw [replicate_zero, append_nil]
    | succ count ih =>
      rw [replicate_succ', ← append_assoc, ← ih]
      unfold resolveNames
      rw [splitOn_append_cons_self]
      simp
  rcases eq_trimSlashes_append path with ⟨count, is⟩
  conv_rhs => rw [is]
  exact (added _ count).symm

theorem joined_concat (some' : names ≠ []) (name : List Char) :
    Path.joined '/' names ++ '/' :: name = Path.joined '/' (names ++ [name]) := by
  rw [Path.joined_append '/' some' (cons_ne_nil _ _), Path.joined_singleton]

/-- The last segment of a path is all of it, or what follows its last slash. -/
theorem eq_append_basename (path : List Char) : '/' ∉ basename path ∧
    (trimSlashes path = basename path ∨ ∃ front, trimSlashes path = front ++ '/' :: basename path) := by
  unfold basename
  by_cases slash : '/' ∈ trimSlashes path
  · rcases eq_append_cons_of_mem (mem_reverse.mpr slash) with ⟨last, front, is, apart⟩
    have turned : trimSlashes path = front.reverse ++ '/' :: last.reverse := by
      rw [← reverse_reverse (trimSlashes path), is]
      simp
    rw [← mem_reverse] at apart
    rw [turned, splitOn_append_cons_self, splitOn_eq_singleton apart, getLastD_concat]
    exact ⟨apart, Or.inr ⟨_, rfl⟩⟩
  · rw [splitOn_eq_singleton slash]
    exact ⟨slash, Or.inl rfl⟩

theorem resolveNames_joined (named : Path.Named '/' names)
    (kept : ∀ name ∈ names, name ≠ ".".toList) : resolveNames (Path.joined '/' names) = names := by
  unfold resolveNames
  cases names with
  | nil => simp [Path.joined]
  | cons name rest =>
    rw [Path.splitOn_joined '/' (fun other listed => (named other listed).2) (cons_ne_nil _ _), filter_eq_self]
    intro other listed
    simpa using ⟨(named other listed).1, kept other listed⟩

/-! ## Collecting -/

variable {α : Type}

namespace FilesRoot

/-- A name that an entry of an archive may have: all of a file's but a single dot's. -/
def Naming (name : List Char) : Prop :=
  name ≠ [] ∧ '/' ∉ name ∧ nulChar ∉ name ∧ name ≠ "..".toList

end FilesRoot

/-- The entry that a node of the selection goes into an archive as. -/
def archiveEntry (base : List (List Char)) (node : List (List Char) × Option (List α)) :
    ArchiveEntry α :=
  ⟨Path.joined '/' (base ++ node.1), node.2⟩

namespace CollectedEntries

/-- The limits of an archive, which what was collected keeps to. -/
def Within (collected : CollectedEntries α) : Prop :=
  collected.entries.length ≤ maxArchiveItems ∧ collected.totalSize ≤ maxTransferBytes ∧
    collected.totalSize = (collected.entries.map fun entry => (entry.content.getD []).length).sum

variable {collected after : CollectedEntries α}

theorem add_ok {entry : ArchiveEntry α} (added : collected.add entry = .ok after) (within : collected.Within) :
    after.Within ∧ after.entries = collected.entries ++ [entry] := by
  unfold add at added
  split at added
  · cases added
  rename_i room
  dsimp only at added
  split at added
  · cases added
  rename_i small
  cases added
  rcases within with ⟨-, bounded, sums⟩
  refine ⟨⟨?_, ?_, ?_⟩, rfl⟩
  · rw [length_append, length_singleton]
    omega
  · cases content : entry.content with
    | none => simpa [content] using bounded
    | some bytes =>
      simp only [content, Option.isSome_some, true_and, Option.getD_some] at small ⊢
      omega
  · rw [map_append, sum_append, ← sums]
    simp

/-- What a folder holds is collected as the walk over it meets it. -/
theorem visitChildren_ok {forest : FileForest (List Char) (List α)} {path : List Char}
    {base : List (List Char)} (some' : base ≠ [])
    (visited : visitChildren path (Path.joined '/' base) forest collected = .ok after)
    (within : collected.Within) :
    after.Within ∧ after.entries = collected.entries ++ forest.nodes.map (archiveEntry base) := by
  induction forest generalizing path base collected after with
  | nil =>
    cases visited
    exact ⟨within, by simp [nodes]⟩
  | file child content rest ih =>
    rcases bind_eq_ok.mp visited with ⟨-, -, visited⟩
    rcases bind_eq_ok.mp visited with ⟨first, added, visited⟩
    rcases add_ok added within with ⟨within', is⟩
    rcases ih some' visited within' with ⟨within'', is'⟩
    refine ⟨within'', ?_⟩
    rw [is', is, joined_concat some', append_assoc]
    rfl
  | folder child children rest ihChildren ih =>
    rcases bind_eq_ok.mp visited with ⟨-, -, visited⟩
    rcases bind_eq_ok.mp visited with ⟨first, added, visited⟩
    rcases bind_eq_ok.mp visited with ⟨second, below, visited⟩
    rcases add_ok added within with ⟨within₁, is₁⟩
    rw [joined_concat some'] at below
    rcases ihChildren (by simp) below within₁ with ⟨within₂, is₂⟩
    rcases ih some' visited within₂ with ⟨within₃, is₃⟩
    refine ⟨within₃, ?_⟩
    have deeper : (children.nodes.map (Prod.map (child :: ·) id)).map (archiveEntry base) =
        children.nodes.map (archiveEntry (base ++ [child])) := by
      rw [map_map]
      apply map_congr_left
      intro node _
      simp [archiveEntry]
    rw [is₃, is₂, is₁, joined_concat some', nodes, map_append, map_cons, deeper]
    simp [archiveEntry]

theorem visit_ok {path name : List Char} {entry : FileEntry (List Char) (List α)}
    (visited : collected.visit path name entry = .ok after) (within : collected.Within) :
    after.Within ∧ after.entries = collected.entries ++ (ofEntries [(name, entry)]).nodes.map (archiveEntry []) := by
  cases entry with
  | file content =>
    rcases add_ok visited within with ⟨within', is⟩
    refine ⟨within', ?_⟩
    rw [is]
    simp [ofEntries, nodes, archiveEntry]
  | folder children =>
    rcases bind_eq_ok.mp visited with ⟨first, added, visited⟩
    rcases add_ok added within with ⟨within', is⟩
    rw [← Path.joined_singleton '/' name] at visited
    rcases visitChildren_ok (cons_ne_nil _ _) visited within' with ⟨within'', is'⟩
    refine ⟨within'', ?_⟩
    have deeper : (children.nodes.map (Prod.map (name :: ·) id)).map (archiveEntry []) =
        children.nodes.map (archiveEntry [name]) := by
      rw [map_map]
      apply map_congr_left
      intro node _
      simp [archiveEntry]
    rw [is', is, ofEntries, ofEntries, nodes, nodes, append_nil, map_cons, deeper]
    simp [archiveEntry]

end CollectedEntries

/-- What is at a selected path, under the name it goes into an archive with. -/
def Chosen (files : FileForest (List Char) (List α)) (choice : List Char)
    (chosen : List Char × FileEntry (List Char) (List α)) : Prop :=
  chosen.1 = basename choice ∧ FilesRoot.Naming (basename choice) ∧ resolveNames choice ≠ [] ∧
    (FileEntry.folder files).at? (resolveNames choice) = some chosen.2

theorem naming_of_validateRelativePath {path : List Char} (valid : validateRelativePath (trimSlashes path) = .ok ()) :
    FilesRoot.Naming (basename path) := by
  unfold validateRelativePath at valid
  split at valid
  · rename_i allowed
    rcases allowed with ⟨some', noNul, -, noUp⟩
    rcases eq_append_basename path with ⟨apart, is | ⟨front, is⟩⟩
    · refine ⟨is ▸ some', apart, is ▸ noNul, fun up => noUp ?_⟩
      rw [is, up]
      decide
    refine ⟨fun empty => ?_, apart, fun inside => noNul ?_, fun up => noUp ?_⟩
    · rw [empty] at is
      have again : trimSlashes (trimSlashes path) = trimSlashes path :=
        rdropWhile_idempotent _ _
      rw [is, trimSlashes_concat] at again
      have short : (trimSlashes front).length ≤ front.length :=
        (List.rdropWhile_prefix _ front).length_le
      rw [again, length_append, length_singleton] at short
      omega
    · rw [is, mem_append]
      exact Or.inr (mem_cons_of_mem _ inside)
    · rw [is, up, splitOnP_append_cons _ _ (by simp), mem_append]
      exact Or.inr (by decide)
  · cases valid

theorem existingMutationEntry_ok {files : FileForest (List Char) (List α)} {path : List Char}
    {entry : FileEntry (List Char) (List α)} (exists' : existingMutationEntry files path = .ok entry) :
    Chosen files path (basename path, entry) := by
  rcases bind_eq_ok.mp exists' with ⟨_, valid, found⟩
  rw [resolveNames_trimSlashes] at found
  split at found
  · cases found
  rename_i some'
  split at found
  · rename_i entry' is
    cases found
    exact ⟨rfl, naming_of_validateRelativePath valid, some', is⟩
  · cases found

theorem collectArchiveEntries_ok {files : FileForest (List Char) (List α)}
    {selected : List (List Char)} {entries : List (ArchiveEntry α)}
    (packed : collectArchiveEntries files selected = .ok entries) :
    ∃ chosen, Forall₂ (Chosen files) selected chosen ∧ entries = (ofEntries chosen).nodes.map (archiveEntry []) ∧
      entries.length ≤ maxArchiveItems ∧
      (entries.map fun entry => (entry.content.getD []).length).sum ≤ maxTransferBytes := by
  have run (selected : List (List Char)) (before after : CollectedEntries α) (within : before.Within)
      (walked : selected.foldlM (fun (collected : CollectedEntries α) path => do
        let entry ← existingMutationEntry files path
        collected.visit (Path.joined '/' (resolveNames path)) (basename path) entry) before = .ok after) :
      after.Within ∧ ∃ chosen, Forall₂ (Chosen files) selected chosen ∧
        after.entries = before.entries ++ (ofEntries chosen).nodes.map (archiveEntry []) := by
    induction selected generalizing before with
    | nil =>
      cases walked
      exact ⟨within, [], .nil, by simp [ofEntries, nodes]⟩
    | cons choice rest ih =>
      rw [foldlM_cons] at walked
      rcases bind_eq_ok.mp walked with ⟨middle, first, later⟩
      rcases bind_eq_ok.mp first with ⟨entry, found, visited⟩
      rcases CollectedEntries.visit_ok visited within with ⟨within', is⟩
      rcases ih middle within' later with ⟨within'', chosen, all, is'⟩
      refine ⟨within'', (basename choice, entry) :: chosen, .cons (existingMutationEntry_ok found) all, ?_⟩
      rw [is', is, nodes_ofEntries_cons (basename choice, entry) chosen, map_append, append_assoc]
  rcases bind_eq_ok.mp packed with ⟨collected, walked, is⟩
  obtain rfl := pure_eq_ok.mp is
  rcases run selected {} collected ⟨Nat.zero_le _, Nat.zero_le _, rfl⟩ walked with ⟨within, chosen, all, are⟩
  refine ⟨chosen, all, by simpa using are, within.1, ?_⟩
  rw [← within.2.2]
  exact within.2.1

/-! ## Inspecting -/

namespace ArchivedFile

/-- The name that an entry of an archive is inspected under. -/
def inspectedName (file : ArchivedFile α) : List Char :=
  if file.directory then trimSlashes file.fileName else file.fileName

def inspected (file : ArchivedFile α) : ArchiveEntry α :=
  ⟨file.inspectedName, if file.directory then none else some file.content⟩

/-- The rules on an entry's name by itself. -/
def Safe (file : ArchivedFile α) : Prop :=
  file.inspectedName ≠ [] ∧ backslash ∉ file.fileName ∧ nulChar ∉ file.fileName ∧ file.fileName.head? ≠ some '/' ∧
    ∀ segment ∈ file.inspectedName.splitOn '/', segment ≠ [] ∧ segment ≠ ".".toList ∧ segment ≠ "..".toList

end ArchivedFile

theorem validateArchiveEntryPath_ok {file : ArchivedFile α} {names : List (List Char)}
    {name : List Char} : validateArchiveEntryPath file.fileName file.directory names = .ok name ↔
      file.Safe ∧ file.inspectedName ∉ names ∧ name = file.inspectedName := by
  have rule : file.Safe ↔ ¬ (file.inspectedName = [] ∨ backslash ∈ file.fileName ∨
      nulChar ∈ file.fileName ∨ file.fileName.head? = some '/' ∨
      ∃ segment ∈ file.inspectedName.splitOn '/', segment = [] ∨ segment = ".".toList ∨ segment = "..".toList) := by
    simp only [ArchivedFile.Safe, not_or, not_exists, not_and]
  unfold validateArchiveEntryPath
  dsimp only
  rw [← ArchivedFile.inspectedName, rule]
  split
  · rename_i unsafe'
    exact ⟨nofun, fun accepted => absurd unsafe' accepted.1⟩
  rename_i safe
  split
  · rename_i twice
    exact ⟨nofun, fun accepted => absurd twice accepted.2.1⟩
  · rename_i new
    rw [Except.ok.injEq, eq_comm]
    exact ⟨fun is => ⟨safe, new, is⟩, fun accepted => accepted.2.2⟩

theorem InspectedEntries.add_ok {inspected after : InspectedEntries α} {file : ArchivedFile α} :
    inspected.add file = .ok after ↔ inspected.entries.length + 1 ≤ maxArchiveItems ∧ file.Safe ∧
        file.inspectedName ∉ inspected.entries.map (·.name) ∧
        inspected.totalSize + file.content.length ≤ maxTransferBytes ∧
        after = ⟨inspected.entries ++ [file.inspected], inspected.totalSize + file.content.length⟩ := by
  unfold add
  split
  · rename_i full
    refine ⟨nofun, fun accepted => ?_⟩
    have room := accepted.1
    omega
  rename_i room
  rw [bind_eq_ok]
  constructor
  · rintro ⟨name, valid, rest⟩
    rcases validateArchiveEntryPath_ok.mp valid with ⟨safe, new, rfl⟩
    by_cases large : inspected.totalSize + file.content.length > maxTransferBytes
    · rw [if_pos large] at rest
      cases rest
    · rw [if_neg large] at rest
      exact ⟨by omega, safe, new, by omega, (Except.ok.inj rest).symm⟩
  · rintro ⟨-, safe, new, small, rfl⟩
    refine ⟨_, validateArchiveEntryPath_ok.mpr ⟨safe, new, rfl⟩, ?_⟩
    rw [if_neg (by omega)]
    rfl

/-- An archive is accepted whose entries keep to the rules, to one name each and to the limits. -/
theorem inspectArchive_ok {archive : List (ArchivedFile α)} {entries : List (ArchiveEntry α)} :
    inspectArchive archive = .ok entries ↔ (∀ file ∈ archive, file.Safe) ∧ (archive.map (·.inspectedName)).Nodup ∧
        archive.length ≤ maxArchiveItems ∧
        (archive.map (·.content.length)).sum ≤ maxTransferBytes ∧
        entries = archive.map (·.inspected) := by
  have run (before after : InspectedEntries α) (few : before.entries.length ≤ maxArchiveItems)
      (small : before.totalSize ≤ maxTransferBytes) (apart : (before.entries.map (·.name)).Nodup) :
      archive.foldlM InspectedEntries.add before = .ok after ↔ (∀ file ∈ archive, file.Safe) ∧
          (before.entries.map (·.name) ++ archive.map (·.inspectedName)).Nodup ∧
          before.entries.length + archive.length ≤ maxArchiveItems ∧
          before.totalSize + (archive.map (·.content.length)).sum ≤ maxTransferBytes ∧
          after = ⟨before.entries ++ archive.map (·.inspected),
            before.totalSize + (archive.map (·.content.length)).sum⟩ := by
    induction archive generalizing before with
    | nil =>
      rw [foldlM_nil, pure_eq_ok, eq_comm]
      simp [few, small, apart]
    | cons file rest ih =>
      rw [foldlM_cons, bind_eq_ok]
      have turned : before.entries.map (·.name) ++ (file :: rest).map (·.inspectedName) =
          (before.entries ++ [file.inspected]).map (·.name) ++ rest.map (·.inspectedName) := by
        simp [ArchivedFile.inspected]
      rw [turned, forall_mem_cons, length_cons, map_cons, sum_cons, map_cons]
      constructor
      · rintro ⟨middle, added, later⟩
        rcases InspectedEntries.add_ok.mp added with ⟨room, safe, new, bounded, rfl⟩
        have apart' : ((before.entries ++ [file.inspected]).map (·.name)).Nodup := by
          rw [map_append, map_singleton, ← concat_eq_append, nodup_concat]
          exact ⟨new, apart⟩
        rcases (ih _ (by simpa using room) bounded apart').mp later with
          ⟨safeRest, nodup, count, total, rfl⟩
        rw [length_append, length_singleton] at count
        dsimp only at total
        refine ⟨⟨safe, safeRest⟩, nodup, by omega, by omega, ?_⟩
        simp [Nat.add_assoc]
      · rintro ⟨⟨safe, safeRest⟩, nodup, count, total, rfl⟩
        have apart' := nodup.of_append_left
        have new : file.inspectedName ∉ before.entries.map (·.name) := by
          rw [map_append, map_singleton, ← concat_eq_append, nodup_concat] at apart'
          exact apart'.1
        refine ⟨_, InspectedEntries.add_ok.mpr ⟨by omega, safe, new, by omega, rfl⟩, ?_⟩
        refine (ih _ (by rw [length_append, length_singleton]; omega)
          (by show _ + _ ≤ _; omega) apart').mpr ⟨safeRest, nodup, ?_, ?_, ?_⟩
        · rw [length_append, length_singleton]
          omega
        · dsimp only
          omega
        · simp [Nat.add_assoc]
  unfold inspectArchive
  rw [bind_eq_ok]
  have whole (after : InspectedEntries α) :=
    run {} after (Nat.zero_le _) (Nat.zero_le _) nodup_nil
  constructor
  · rintro ⟨after, walked, is⟩
    rcases (whole after).mp walked with ⟨safe, nodup, count, total, rfl⟩
    refine ⟨safe, by simpa using nodup, by simpa using count, by simpa using total, ?_⟩
    exact (pure_eq_ok.mp is).symm
  · rintro ⟨safe, nodup, count, total, rfl⟩
    refine ⟨_, (whole _).mpr ⟨safe, by simpa using nodup, by simpa using count, by simpa using total,
      rfl⟩, ?_⟩
    exact pure_eq_ok.mpr rfl

end Kiln.Relay
