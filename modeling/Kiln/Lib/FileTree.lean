import Mathlib
import Kiln.Lib.OrderedMap

/-!
# Paths and file trees

A path as text, its names apart by a separator, and as the list of its names. A file tree says what each
path holds; what is created in one is new there, and lies only in folders.
-/

namespace Kiln.Lib
open List

namespace Path

variable {σ : Type*} (sep : σ)

/-- The names of a path. The empty one has none. -/
def segments [DecidableEq σ] (path : List σ) : List (List σ) := if path = [] then [] else path.splitOn sep

/-- The path of names. -/
def joined (names : List (List σ)) : List σ := [sep].intercalate names

@[simp] theorem segments_nil [DecidableEq σ] : segments sep [] = [] := if_pos rfl

@[simp] theorem joined_nil : joined sep [] = [] := rfl

@[simp] theorem joined_singleton (name : List σ) : joined sep [name] = name := by
  simp [joined]

theorem joined_cons_cons (name next : List σ) (names : List (List σ)) :
    joined sep (name :: next :: names) = name ++ sep :: joined sep (next :: names) := by
  simp [joined, intercalate]

variable [DecidableEq σ]

@[simp] theorem joined_segments (path : List σ) : joined sep (segments sep path) = path := by
  unfold segments
  split
  · rename_i empty
    rw [empty, joined_nil]
  · exact intercalate_splitOn sep

variable {names : List (List σ)}

theorem splitOn_joined (named : ∀ name ∈ names, sep ∉ name) (some' : names ≠ []) :
    (joined sep names).splitOn sep = names :=
  splitOn_intercalate sep named some'

/-- Names that are no path's only, empty name are those of their path. -/
theorem segments_joined (named : ∀ name ∈ names, sep ∉ name) (filled : names ≠ [[]]) :
    segments sep (joined sep names) = names := by
  unfold segments
  split
  · rename_i empty
    match names with
    | [] => rfl
    | [name] =>
      rw [joined_singleton] at empty
      exact absurd (by rw [empty]) filled
    | name :: next :: rest =>
      rw [joined_cons_cons] at empty
      exact absurd empty (by simp)
  · rename_i full
    apply splitOn_joined sep named
    rintro rfl
    exact full rfl

omit [DecidableEq σ] in
theorem joined_append {more : List (List σ)} (some' : names ≠ []) (more' : more ≠ []) :
    joined sep (names ++ more) = joined sep names ++ sep :: joined sep more := by
  induction names with
  | nil => exact absurd rfl some'
  | cons name rest ih =>
    cases rest with
    | nil =>
      cases more with
      | nil => exact absurd rfl more'
      | cons next later => rw [singleton_append, joined_cons_cons, joined_singleton]
    | cons next later =>
      rw [cons_append, cons_append, joined_cons_cons, ← cons_append,
        ih (cons_ne_nil _ _), joined_cons_cons, append_assoc, cons_append]

/-- A path with the separator after it is the front of the paths below it. -/
theorem joined_sep_prefix_iff {others : List (List σ)} (some' : names ≠ [])
    (named : ∀ name ∈ names, sep ∉ name) (named' : ∀ name ∈ others, sep ∉ name) :
    joined sep names ++ [sep] <+: joined sep others ↔ names <+: others ∧ names ≠ others := by
  constructor
  · rintro ⟨rest, is⟩
    have others' : others ≠ [] := by
      rintro rfl
      simp at is
    have split : others = names ++ rest.splitOn sep := by
      rw [← splitOn_joined sep named' others', ← is, append_assoc, singleton_append,
        splitOn_eq_splitOnP, splitOnP_append_cons _ _ (by simp),
        ← splitOn_eq_splitOnP, ← splitOn_eq_splitOnP, splitOn_joined sep named some']
    refine ⟨⟨_, split.symm⟩, fun same => ?_⟩
    rw [← same] at split
    exact splitOn_ne_nil sep rest (self_eq_append_right.mp split)
  · rintro ⟨⟨more, rfl⟩, other⟩
    have more' : more ≠ [] := by
      rintro rfl
      exact other (append_nil _).symm
    rw [joined_append sep some' more']
    exact ⟨joined sep more, by rw [append_assoc, singleton_append]⟩

theorem segments_injective : Function.Injective (segments sep) := by
  intro path other same
  rw [← joined_segments sep path, same, joined_segments]

/-- Names that files may have. -/
def Named (names : List (List σ)) : Prop := ∀ name ∈ names, name ≠ [] ∧ sep ∉ name

variable {sep} {names : List (List σ)}

theorem Named.segments_joined (named : Named sep names) : segments sep (joined sep names) = names := by
  apply Path.segments_joined sep fun name listed => (named name listed).2
  rintro rfl
  exact (named [] mem_cons_self).1 rfl

theorem Named.joined_injective {others : List (List σ)} (named : Named sep names)
    (named' : Named sep others) (same : joined sep names = joined sep others) : names = others := by
  rw [← named.segments_joined, same, named'.segments_joined]

omit [DecidableEq σ] in
/-- Their path ends in none of the separators. -/
theorem Named.joined_last (named : Named sep names) (some' : names ≠ []) :
    ∃ front last, joined sep names = front ++ [last] ∧ last ≠ sep := by
  induction names with
  | nil => exact absurd rfl some'
  | cons name rest ih =>
    cases rest with
    | nil =>
      rcases named name mem_cons_self with ⟨filled, apart⟩
      refine ⟨name.dropLast, name.getLast filled, ?_, ?_⟩
      · rw [joined_singleton, dropLast_append_getLast]
      · intro same
        exact apart (same ▸ getLast_mem filled)
    | cons next later =>
      rcases ih (fun other listed => named other (mem_cons_of_mem _ listed))
        (cons_ne_nil _ _) with ⟨front, last, is, other⟩
      refine ⟨name ++ sep :: front, last, ?_, other⟩
      rw [joined_cons_cons, is, append_assoc, cons_append]

omit [DecidableEq σ] in
/-- Their path begins with none of the separators. -/
theorem Named.joined_first (named : Named sep names) (some' : names ≠ []) :
    ∃ first rest, joined sep names = first :: rest ∧ first ≠ sep := by
  cases names with
  | nil => exact absurd rfl some'
  | cons name later =>
    rcases named name mem_cons_self with ⟨filled, apart⟩
    cases name with
    | nil => exact absurd rfl filled
    | cons first rest =>
      have other : first ≠ sep := by
        rintro rfl
        exact apart mem_cons_self
      cases later with
      | nil => exact ⟨first, rest, joined_singleton sep _, other⟩
      | cons next later => exact ⟨first, _, joined_cons_cons sep _ next later, other⟩

end Path

/-- What a path of a tree holds. The names of one file have its identity. -/
inductive FileNode (ι α τ : Type*) where
  | folder
  | file (identity : ι) (content : α)
  | symlink (target : τ)
  deriving DecidableEq, Repr

abbrev FileTree (σ ι α τ : Type*) := OrderedMap (List σ) (FileNode ι α τ)

namespace FileTree

variable {σ ι α τ : Type*} [DecidableEq σ]

/-- The folders that a path lies in, the outermost first. -/
def parents (path : List σ) : List (List σ) := (range path.length).map path.take

variable {path : List σ}

omit [DecidableEq σ] in
theorem mem_parents {parent : List σ} : parent ∈ parents path ↔ parent <+: path ∧ parent ≠ path := by
  rw [parents, mem_map]
  constructor
  · rintro ⟨n, short, rfl⟩
    rw [mem_range] at short
    refine ⟨List.take_prefix n path, fun same => ?_⟩
    have lengths := congrArg length same
    rw [length_take] at lengths
    omega
  · rintro ⟨inside, other⟩
    refine ⟨parent.length, mem_range.mpr ?_, (prefix_iff_eq_take.mp inside).symm⟩
    apply lt_of_le_of_ne inside.length_le
    intro same
    exact other (inside.eq_of_length same)

/-- A tree with folders at paths: none of them may hold anything else. -/
def withFolders (tree : FileTree σ ι α τ) : List (List σ) → Option (FileTree σ ι α τ)
  | [] => some tree
  | path :: rest =>
      match tree.get path with
      | none => withFolders (tree.set path .folder) rest
      | some .folder => withFolders tree rest
      | some _ => none

/-- Something new in a tree, with the folders it lies in. -/
def create (tree : FileTree σ ι α τ) (path : List σ) (node : FileNode ι α τ) :
    Option (FileTree σ ι α τ) :=
  if tree.has path then none else (tree.withFolders (parents path)).map (·.set path node)

/-- A folder, unless it is there. -/
def makeFolder (tree : FileTree σ ι α τ) (path : List σ) : Option (FileTree σ ι α τ) :=
  match tree.get path with
  | some .folder => some tree
  | _ => tree.create path .folder

/-- Another name of a file. -/
def link (tree : FileTree σ ι α τ) (path target : List σ) : Option (FileTree σ ι α τ) :=
  (tree.withFolders (parents target)).bind fun tree =>
    match tree.get target with
    | some (.file identity content) => tree.create path (.file identity content)
    | _ => none

/-- A path's folders are all there. -/
def Lies (tree : FileTree σ ι α τ) (path : List σ) : Prop :=
  ∀ parent ∈ parents path, tree.get parent = some .folder

variable {tree : FileTree σ ι α τ}

theorem withFolders_of_there {paths : List (List σ)} (there : ∀ path ∈ paths, tree.get path = some .folder) :
    tree.withFolders paths = some tree := by
  induction paths with
  | nil => rfl
  | cons path rest ih =>
    rw [withFolders, there path mem_cons_self]
    exact ih fun path later => there path (mem_cons_of_mem _ later)

theorem create_of_lies {node : FileNode ι α τ} (lies : tree.Lies path) (new : tree.get path = none) :
    tree.create path node = some (tree.set path node) := by
  rw [create, if_neg (by simp [OrderedMap.has, new]), withFolders_of_there lies, Option.map_some]

theorem makeFolder_of_lies (lies : tree.Lies path) (new : tree.get path = none) :
    tree.makeFolder path = some (tree.set path .folder) := by
  rw [makeFolder, new]
  exact create_of_lies lies new

theorem link_of_lies {target : List σ} {identity : ι} {content : α} (lies : tree.Lies path)
    (new : tree.get path = none) (targetLies : tree.Lies target)
    (is : tree.get target = some (.file identity content)) :
    tree.link path target = some (tree.set path (.file identity content)) := by
  rw [link, withFolders_of_there targetLies, Option.bind_some, is]
  exact create_of_lies lies new

/-! What a tree holds stays there. -/

section Keeps

variable {tree after : FileTree σ ι α τ} {path other : List σ} {node held : FileNode ι α τ}

theorem withFolders_keeps {paths : List (List σ)} (made : tree.withFolders paths = some after)
    (is : tree.get other = some held) : after.get other = some held := by
  induction paths generalizing tree with
  | nil => exact Option.some.inj made ▸ is
  | cons path rest ih =>
    unfold withFolders at made
    split at made
    · rename_i missing
      apply ih made
      rw [OrderedMap.get_set, if_neg]
      · exact is
      · rintro rfl
        rw [missing] at is
        cases is
    · exact ih made is
    · cases made

theorem create_eq_some (made : tree.create path node = some after) :
    tree.get path = none ∧ ∃ middle, tree.withFolders (parents path) = some middle ∧ after = middle.set path node := by
  unfold create at made
  split at made
  · cases made
  · rename_i new
    rcases Option.map_eq_some_iff.mp made with ⟨middle, folders, rfl⟩
    exact ⟨by simpa [OrderedMap.has] using new, middle, folders, rfl⟩

theorem create_holds (made : tree.create path node = some after) : after.get path = some node := by
  rcases create_eq_some made with ⟨-, middle, -, rfl⟩
  rw [OrderedMap.get_set, if_pos rfl]

theorem create_keeps (made : tree.create path node = some after) (is : tree.get other = some held) :
    after.get other = some held := by
  rcases create_eq_some made with ⟨new, middle, folders, rfl⟩
  rw [OrderedMap.get_set, if_neg]
  · exact withFolders_keeps folders is
  · rintro rfl
    rw [new] at is
    cases is

theorem makeFolder_holds (made : tree.makeFolder path = some after) : after.get path = some .folder := by
  unfold makeFolder at made
  split at made
  · rename_i there
    exact Option.some.inj made ▸ there
  · exact create_holds made

theorem makeFolder_keeps (made : tree.makeFolder path = some after)
    (is : tree.get other = some held) : after.get other = some held := by
  unfold makeFolder at made
  split at made
  · exact Option.some.inj made ▸ is
  · exact create_keeps made is

end Keeps

end FileTree

end Kiln.Lib
