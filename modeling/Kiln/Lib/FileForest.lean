import Kiln.Lib.FileTree

/-!
# Forests of files

What a folder holds: its files and folders one after another. Each lies at a path of names, and a tree can be
built of all of them, a folder before what it holds.
-/

namespace Kiln.Lib
open List

/-- The files and folders of a folder. -/
inductive FileForest (ν α : Type*) where
  | nil
  | file (name : ν) (content : α) (rest : FileForest ν α)
  | folder (name : ν) (children rest : FileForest ν α)
  deriving DecidableEq, Repr

inductive FileEntry (ν α : Type*) where
  | file (content : α)
  | folder (children : FileForest ν α)
  deriving DecidableEq, Repr

variable {ν α τ : Type*}

namespace FileForest

def names : FileForest ν α → List ν
  | nil => []
  | file name _ rest => name :: rest.names
  | folder name _ rest => name :: rest.names

/-- No two entries of a folder have one name. -/
def Distinct : FileForest ν α → Prop
  | nil => True
  | file name _ rest => name ∉ rest.names ∧ rest.Distinct
  | folder name children rest => name ∉ rest.names ∧ children.Distinct ∧ rest.Distinct

/-- A property of every name. -/
def AllNames (p : ν → Prop) : FileForest ν α → Prop
  | nil => True
  | file name _ rest => p name ∧ rest.AllNames p
  | folder name children rest => p name ∧ children.AllNames p ∧ rest.AllNames p

/-- Every file and folder with its path, a folder before what it holds. A file has its content. -/
def nodes : FileForest ν α → List (List ν × Option α)
  | nil => []
  | file name content rest => ([name], some content) :: rest.nodes
  | folder name children rest =>
      ([name], none) :: children.nodes.map (Prod.map (name :: ·) id) ++ rest.nodes

variable [DecidableEq ν]

def find (name : ν) : FileForest ν α → Option (FileEntry ν α)
  | nil => none
  | file other content rest => if other = name then some (.file content) else rest.find name
  | folder other children rest => if other = name then some (.folder children) else rest.find name

end FileForest

namespace FileEntry

def leaf : FileEntry ν α → Option α
  | file content => some content
  | folder _ => none

/-- What the path of an entry holds in a tree. -/
def node : FileEntry ν α → FileNode Unit α τ
  | file content => .file () content
  | folder _ => .folder

/-- No two entries of a folder below an entry have one name. -/
def Distinct : FileEntry ν α → Prop
  | file _ => True
  | folder children => children.Distinct

/-- A property of every name below an entry. -/
def AllNames (p : ν → Prop) : FileEntry ν α → Prop
  | file _ => True
  | folder children => children.AllNames p

/-- What lies at a path below an entry. -/
def at? [DecidableEq ν] : FileEntry ν α → List ν → Option (FileEntry ν α)
  | entry, [] => some entry
  | folder children, name :: path => (children.find name).bind (·.at? path)
  | file _, _ :: _ => none

end FileEntry

namespace FileForest

/-- The forest of named entries. -/
def ofEntries : List (ν × FileEntry ν α) → FileForest ν α
  | [] => nil
  | (name, .file content) :: rest => file name content (ofEntries rest)
  | (name, .folder children) :: rest => folder name children (ofEntries rest)

@[simp] theorem names_ofEntries (entries : List (ν × FileEntry ν α)) :
    (ofEntries entries).names = entries.map Prod.fst := by
  induction entries with
  | nil => rfl
  | cons entry rest ih =>
    rcases entry with ⟨name, content | children⟩ <;> exact congrArg (name :: ·) ih

theorem nodes_ofEntries_cons (entry : ν × FileEntry ν α) (rest : List (ν × FileEntry ν α)) :
    (ofEntries (entry :: rest)).nodes = (ofEntries [entry]).nodes ++ (ofEntries rest).nodes := by
  rcases entry with ⟨name, content | children⟩ <;> simp [ofEntries, nodes]

section Names

variable {p : ν → Prop}

variable {forest : FileForest ν α}

theorem AllNames.imp {q : ν → Prop} (all : forest.AllNames p) (weaker : ∀ name, p name → q name) :
    forest.AllNames q := by
  induction forest with
  | nil => trivial
  | file name content rest ih => exact ⟨weaker name all.1, ih all.2⟩
  | folder name children rest ihChildren ih =>
    exact ⟨weaker name all.1, ihChildren all.2.1, ih all.2.2⟩

theorem AllNames.nodes (all : forest.AllNames p) {node : List ν × Option α}
    (listed : node ∈ forest.nodes) : ∀ name ∈ node.1, p name := by
  induction forest generalizing node with
  | nil => cases listed
  | file other content rest ih =>
    rcases mem_cons.mp listed with rfl | later
    · intro name inside
      rw [mem_singleton.mp inside]
      exact all.1
    · exact ih all.2 later
  | folder other children rest ihChildren ih =>
    rw [FileForest.nodes, cons_append, mem_cons, mem_append] at listed
    rcases listed with rfl | below | later
    · intro name inside
      rw [mem_singleton.mp inside]
      exact all.1
    · rcases mem_map.mp below with ⟨node', listed', rfl⟩
      intro name inside
      rcases mem_cons.mp inside with rfl | deeper
      · exact all.1
      · exact ihChildren all.2.1 listed' name deeper
    · exact ih all.2.2 later

theorem nodes_ne_nil {node : List ν × Option α} (listed : node ∈ forest.nodes) :
    ∃ name path, node.1 = name :: path ∧ name ∈ forest.names := by
  induction forest generalizing node with
  | nil => cases listed
  | file other content rest ih =>
    rcases mem_cons.mp listed with rfl | later
    · exact ⟨other, [], rfl, mem_cons_self⟩
    · rcases ih later with ⟨name, path, is, member⟩
      exact ⟨name, path, is, mem_cons_of_mem _ member⟩
  | folder other children rest _ ih =>
    rw [FileForest.nodes, cons_append, mem_cons, mem_append] at listed
    rcases listed with rfl | below | later
    · exact ⟨other, [], rfl, mem_cons_self⟩
    · rcases mem_map.mp below with ⟨node', -, rfl⟩
      exact ⟨other, node'.1, rfl, mem_cons_self⟩
    · rcases ih later with ⟨name, path, is, member⟩
      exact ⟨name, path, is, mem_cons_of_mem _ member⟩

end Names

variable [DecidableEq ν]

variable {forest : FileForest ν α} {name : ν}

theorem find_eq_none : forest.find name = none ↔ name ∉ forest.names := by
  induction forest with
  | nil => simp [find, names]
  | file other content rest ih =>
    by_cases same : other = name
    · simp [find, names, same]
    · simp [find, names, same, ih, Ne.symm same]
  | folder other children rest _ ih =>
    by_cases same : other = name
    · simp [find, names, same]
    · simp [find, names, same, ih, Ne.symm same]

variable {entry : FileEntry ν α}

theorem Distinct.of_find (distinct : forest.Distinct) (found : forest.find name = some entry) :
    entry.Distinct := by
  induction forest with
  | nil => cases found
  | file other content rest ih =>
    unfold find at found
    split at found
    · rw [← Option.some.inj found]
      trivial
    · exact ih distinct.2 found
  | folder other children rest _ ih =>
    unfold find at found
    split at found
    · rw [← Option.some.inj found]
      exact distinct.2.1
    · exact ih distinct.2.2 found

theorem AllNames.of_find {p : ν → Prop} (all : forest.AllNames p) (found : forest.find name = some entry) :
    entry.AllNames p := by
  induction forest with
  | nil => cases found
  | file other content rest ih =>
    unfold find at found
    split at found
    · rw [← Option.some.inj found]
      trivial
    · exact ih all.2 found
  | folder other children rest _ ih =>
    unfold find at found
    split at found
    · rw [← Option.some.inj found]
      exact all.2.1
    · exact ih all.2.2 found

variable {entries : List (ν × FileEntry ν α)}

theorem find_ofEntries (distinct : (entries.map Prod.fst).Nodup) :
    (ofEntries entries).find name = some entry ↔ (name, entry) ∈ entries := by
  induction entries with
  | nil => simp [ofEntries, find]
  | cons first rest ih =>
    rw [map_cons, nodup_cons] at distinct
    have split : (ofEntries (first :: rest)).find name =
        if first.1 = name then some first.2 else (ofEntries rest).find name := by
      rcases first with ⟨other, content | children⟩ <;> rfl
    rw [split, mem_cons]
    by_cases same : first.1 = name
    · rw [if_pos same, Option.some.injEq, Prod.ext_iff]
      constructor
      · rintro rfl
        exact Or.inl ⟨same.symm, rfl⟩
      · rintro (is | later)
        · exact is.2.symm
        · exact absurd (mem_map_of_mem (f := Prod.fst) later) (same ▸ distinct.1)
    · rw [if_neg same, ih distinct.2]
      constructor
      · exact Or.inr
      · rintro (rfl | later)
        · exact absurd rfl same
        · exact later

omit [DecidableEq ν] in
theorem distinct_ofEntries : (ofEntries entries).Distinct ↔
    (entries.map Prod.fst).Nodup ∧ ∀ entry ∈ entries, entry.2.Distinct := by
  induction entries with
  | nil => simp [ofEntries, Distinct]
  | cons entry rest ih =>
    rw [map_cons, nodup_cons, forall_mem_cons, ← names_ofEntries]
    rcases entry with ⟨name, content | children⟩
    · simp [ofEntries, Distinct, FileEntry.Distinct, ih, and_assoc]
    · simp only [ofEntries, Distinct, FileEntry.Distinct, ih, names_ofEntries]
      tauto

omit [DecidableEq ν] in
theorem allNames_ofEntries {p : ν → Prop} :
    (ofEntries entries).AllNames p ↔ ∀ entry ∈ entries, p entry.1 ∧ entry.2.AllNames p := by
  induction entries with
  | nil => simp [ofEntries, AllNames]
  | cons entry rest ih =>
    rw [forall_mem_cons]
    rcases entry with ⟨name, content | children⟩
    · simp [ofEntries, AllNames, FileEntry.AllNames, ih]
    · simp [ofEntries, AllNames, FileEntry.AllNames, ih, and_assoc]

theorem mem_nodes (distinct : forest.Distinct) {path : List ν} {leaf : Option α} : (path, leaf) ∈ forest.nodes ↔
      path ≠ [] ∧ ∃ entry, (FileEntry.folder forest).at? path = some entry ∧ entry.leaf = leaf := by
  induction forest generalizing path leaf with
  | nil =>
    cases path with
    | nil => simp [nodes]
    | cons name path => simp [nodes, FileEntry.at?, find]
  | file other content rest ih =>
    rw [nodes, mem_cons, ih distinct.2]
    cases path with
    | nil => simp
    | cons name path =>
      by_cases same : other = name
      · subst same
        have absent : rest.find other = none := find_eq_none.mpr distinct.1
        cases path with
        | nil => simp [FileEntry.at?, find, absent, FileEntry.leaf, eq_comm]
        | cons next path => simp [FileEntry.at?, find, absent]
      · simp [FileEntry.at?, find, same, Ne.symm same]
  | folder other children rest ihChildren ih =>
    rw [nodes, cons_append, mem_cons, mem_append, ih distinct.2.2]
    cases path with
    | nil => simp
    | cons name path =>
      have inside : (name :: path, leaf) ∈ children.nodes.map (Prod.map (other :: ·) id) ↔
          other = name ∧ (path, leaf) ∈ children.nodes := by
        simp only [mem_map, Prod.map, id, Prod.mk.injEq, List.cons.injEq, Prod.exists]
        constructor
        · rintro ⟨path', leaf', listed, ⟨same, rfl⟩, rfl⟩
          exact ⟨same, listed⟩
        · rintro ⟨same, listed⟩
          exact ⟨path, leaf, listed, ⟨same, rfl⟩, rfl⟩
      rw [inside, ihChildren distinct.2.1]
      by_cases same : other = name
      · subst same
        have absent : rest.find other = none := find_eq_none.mpr distinct.1
        cases path with
        | nil => simp [FileEntry.at?, find, absent, FileEntry.leaf, eq_comm]
        | cons next path => simp [FileEntry.at?, find, absent]
      · simp [FileEntry.at?, find, same, Ne.symm same]

/-- The files and folders of a forest of named entries lie below these. -/
theorem mem_nodes_ofEntries (distinct : ∀ entry ∈ entries, entry.2.Distinct) {path : List ν} {leaf : Option α} :
    (path, leaf) ∈ (ofEntries entries).nodes ↔
      ∃ entry ∈ entries, ∃ below found, path = entry.1 :: below ∧ entry.2.at? below = some found ∧
        found.leaf = leaf := by
  induction entries with
  | nil => simp [ofEntries, nodes]
  | cons entry rest ih =>
    rw [forall_mem_cons] at distinct
    have one : (ofEntries [entry]).Distinct :=
      distinct_ofEntries.mpr ⟨nodup_singleton _, by simpa using distinct.1⟩
    rw [nodes_ofEntries_cons, mem_append, ih distinct.2, mem_nodes one]
    simp only [mem_cons, or_and_right, exists_or, exists_eq_left]
    apply or_congr_left
    cases path with
    | nil => simp
    | cons name below =>
      have top : (ofEntries [entry]).find name = if entry.1 = name then some entry.2 else none := by
        rcases entry with ⟨other, content | children⟩ <;> rfl
      by_cases same : entry.1 = name
      · simp [FileEntry.at?, top, same]
      · simp [FileEntry.at?, top, same, Ne.symm same]

omit [DecidableEq ν] in
theorem nodup_nodes (distinct : forest.Distinct) : (forest.nodes.map Prod.fst).Nodup := by
  have first {rest : FileForest ν α} {name : ν} (absent : name ∉ rest.names) (path : List ν) :
      name :: path ∉ rest.nodes.map Prod.fst := by
    intro listed
    rcases mem_map.mp listed with ⟨node, member, is⟩
    rcases nodes_ne_nil member with ⟨other, path', is', inside⟩
    rw [is, List.cons.injEq] at is'
    exact absent (is'.1 ▸ inside)
  induction forest with
  | nil => exact nodup_nil
  | file other content rest ih =>
    exact nodup_cons.mpr ⟨first distinct.1 [], ih distinct.2⟩
  | folder other children rest ihChildren ih =>
    have below : (children.nodes.map (Prod.map (other :: ·) id)).map Prod.fst =
        (children.nodes.map Prod.fst).map (other :: ·) := by
      rw [map_map, map_map]
      rfl
    rw [nodes, cons_append, map_cons, map_append, below, nodup_cons, nodup_append, mem_append, not_or]
    refine ⟨⟨?_, first distinct.1 []⟩, ?_, ih distinct.2.2, ?_⟩
    · intro listed
      rcases mem_map.mp listed with ⟨path, member, is⟩
      rcases mem_map.mp member with ⟨node, member', rfl⟩
      rcases nodes_ne_nil member' with ⟨name, path', is', -⟩
      rw [is'] at is
      exact nomatch (List.cons.inj is).2
    · exact (ihChildren distinct.2.1).map (cons_injective)
    · rintro path listed path' listed' rfl
      rcases mem_map.mp listed with ⟨path', -, rfl⟩
      exact first distinct.1 path' listed'

omit [DecidableEq ν] in
theorem nodup_names (distinct : (forest.nodes.map Prod.fst).Nodup) :
    forest.names.Nodup := by
  have tops : (forest.names.map fun name => [name]).Sublist (forest.nodes.map Prod.fst) := by
    clear distinct
    induction forest with
    | nil => exact .slnil
    | file name content rest ih => exact ih.cons_cons _
    | folder name children rest _ ih =>
      rw [names, nodes, map_cons, cons_append, map_cons, map_append]
      exact (ih.trans (sublist_append_right _ _)).cons_cons _
  exact Nodup.of_map _ (distinct.sublist tops)

end FileForest

namespace FileEntry

variable [DecidableEq ν]

theorem at?_append (entry : FileEntry ν α) (path below : List ν) :
    entry.at? (path ++ below) = (entry.at? path).bind (·.at? below) := by
  induction path generalizing entry with
  | nil => rfl
  | cons name path ih =>
    cases entry with
    | file content => rfl
    | folder children =>
      rw [cons_append, at?, at?, Option.bind_assoc]
      congr 1
      funext inside
      exact ih inside

theorem Distinct.of_at? {entry found : FileEntry ν α} (distinct : entry.Distinct) {path : List ν}
    (is : entry.at? path = some found) : found.Distinct := by
  induction path generalizing entry with
  | nil => exact Option.some.inj is ▸ distinct
  | cons name path ih =>
    cases entry with
    | file content => cases is
    | folder children =>
      rcases Option.bind_eq_some_iff.mp is with ⟨inside, first, below⟩
      exact ih (FileForest.Distinct.of_find distinct first) below

theorem AllNames.of_at? {p : ν → Prop} {entry found : FileEntry ν α} (all : entry.AllNames p)
    {path : List ν} (is : entry.at? path = some found) : found.AllNames p := by
  induction path generalizing entry with
  | nil => exact Option.some.inj is ▸ all
  | cons name path ih =>
    cases entry with
    | file content => cases is
    | folder children =>
      rcases Option.bind_eq_some_iff.mp is with ⟨inside, first, below⟩
      exact ih (FileForest.AllNames.of_find all first) below

end FileEntry

namespace FileTree

/-- A tree with what a list of paths holds, one after another. -/
def build [DecidableEq ν] (tree : FileTree ν Unit α τ) (nodes : List (List ν × Option α)) :
    Option (FileTree ν Unit α τ) :=
  nodes.foldlM (fun tree node =>
    match node.2 with
    | none => tree.makeFolder node.1
    | some content => tree.create node.1 (.file () content)) tree

variable [DecidableEq ν]

theorem build_append (tree : FileTree ν Unit α τ) (nodes more : List (List ν × Option α)) :
    tree.build (nodes ++ more) = (tree.build nodes).bind (·.build more) :=
  foldlM_append

variable {tree : FileTree ν Unit α τ} {path : List ν}

theorem build_keeps {after : FileTree ν Unit α τ} {nodes : List (List ν × Option α)}
    (built : tree.build nodes = some after) {held : FileNode Unit α τ}
    (is : tree.get path = some held) : after.get path = some held := by
  induction nodes generalizing tree with
  | nil => exact Option.some.inj built ▸ is
  | cons node rest ih =>
    rw [build, foldlM_cons] at built
    rcases Option.bind_eq_some_iff.mp built with ⟨middle, made, later⟩
    apply ih later
    rcases node with ⟨path', _ | content⟩
    · exact makeFolder_keeps made is
    · exact create_keeps made is

theorem build_holds {after : FileTree ν Unit α τ} {nodes : List (List ν × Option α)}
    (built : tree.build nodes = some after) {leaf : Option α} (listed : (path, leaf) ∈ nodes) :
    (after.get path).isSome := by
  induction nodes generalizing tree with
  | nil => cases listed
  | cons node rest ih =>
    rw [build, foldlM_cons] at built
    rcases Option.bind_eq_some_iff.mp built with ⟨middle, made, later⟩
    rcases mem_cons.mp listed with rfl | member
    · cases leaf with
      | none => exact Option.isSome_of_eq_some (build_keeps later (makeFolder_holds made))
      | some content => exact Option.isSome_of_eq_some (build_keeps later (create_holds made))
    · exact ih later member

omit [DecidableEq ν] in
theorem parents_concat (path : List ν) (name : ν) : parents (path ++ [name]) = parents path ++ [path] := by
  unfold parents
  rw [length_append, length_singleton, range_succ, map_append, map_singleton, take_left]
  congr 1
  apply map_congr_left
  intro n short
  rw [mem_range] at short
  exact take_append_of_le_length (by omega)

theorem lies_concat {name : ν} (lies : tree.Lies path) (folder : tree.get path = some .folder) :
    tree.Lies (path ++ [name]) := by
  intro parent listed
  rw [parents_concat, mem_append, mem_singleton] at listed
  rcases listed with above | rfl
  · exact lies parent above
  · exact folder

/-- What is set at a path leaves the folders above another's there that don't lie below it. -/
theorem lies_set {other : List ν} {node : FileNode Unit α τ} (lies : tree.Lies path)
    (aside : ¬ other <+: path) : Lies (tree.set other node) path := by
  intro parent listed
  rw [OrderedMap.get_set, if_neg]
  · exact lies parent listed
  · rintro rfl
    exact aside (mem_parents.mp listed).1

omit [DecidableEq ν] in
theorem not_concat_below (path : List ν) (name : ν) : ¬ path ++ [name] <+: path := by
  intro above
  have long := above.length_le
  rw [length_append, length_singleton] at long
  omega

/-- A tree built of a forest's files and folders below a folder holds them, and elsewhere what it held. -/
theorem build_nodes {forest : FileForest ν α} (distinct : forest.Distinct) (base : List ν)
    (lies : tree.Lies base) (folder : tree.get base = some .folder)
    (free : ∀ name ∈ forest.names, ∀ path, tree.get (base ++ name :: path) = none) :
    ∃ after, tree.build (forest.nodes.map (Prod.map (base ++ ·) id)) = some after ∧
      (∀ path entry, path ≠ [] → (FileEntry.folder forest).at? path = some entry →
        after.get (base ++ path) = some entry.node) ∧
      ∀ path, (∀ below entry, below ≠ [] → path = base ++ below →
        (FileEntry.folder forest).at? below ≠ some entry) → after.get path = tree.get path := by
  induction forest generalizing base tree with
  | nil =>
    refine ⟨tree, rfl, ?_, fun _ _ => rfl⟩
    intro path entry some' is
    cases path with
    | nil => exact absurd rfl some'
    | cons name path => cases is
  | file name content rest ih =>
    have made : tree.create (base ++ [name]) (.file () content) = some (tree.set (base ++ [name]) (.file () content)) :=
      create_of_lies (lies_concat lies folder) (free name mem_cons_self [])
    have absent : rest.find name = none := FileForest.find_eq_none.mpr distinct.1
    have apart (path : List ν) (other : path ≠ base ++ [name]) :
        OrderedMap.get (tree.set (base ++ [name]) (.file () content)) path = tree.get path := by
      rw [OrderedMap.get_set, if_neg other.symm]
    have freeRest : ∀ other ∈ rest.names, ∀ path,
        OrderedMap.get (tree.set (base ++ [name]) (.file () content)) (base ++ other :: path) = none := by
      intro other listed path
      rw [apart]
      · exact free other (mem_cons_of_mem _ listed) path
      · intro same
        have is := append_cancel_left same
        rw [List.cons.injEq] at is
        exact distinct.1 (is.1 ▸ listed)
    rcases ih distinct.2 base (lies_set lies (not_concat_below base name))
      ((apart base (by simp)).trans folder) freeRest with ⟨after, built, holds, keeps⟩
    refine ⟨after, ?_, ?_, ?_⟩
    · rw [FileForest.nodes, map_cons, build, foldlM_cons]
      exact (congrArg (Option.bind · _) made).trans built
    · intro path entry some' is
      cases path with
      | nil => exact absurd rfl some'
      | cons other path =>
        by_cases same : name = other
        · subst same
          simp only [FileEntry.at?, FileForest.find, if_pos, Option.bind_some] at is
          cases path with
          | cons next path => cases is
          | nil =>
            cases is
            rw [keeps]
            · rw [OrderedMap.get_set, if_pos rfl]
              rfl
            · rintro below entry some' same
              rw [← append_cancel_left same]
              simp [FileEntry.at?, absent]
        · refine holds (other :: path) entry some' ?_
          simpa [FileEntry.at?, FileForest.find, same] using is
    · intro path outside
      rw [keeps path, apart path]
      · rintro rfl
        exact outside [name] (.file content) nofun rfl (by simp [FileEntry.at?, FileForest.find])
      rintro below entry some' rfl is
      cases below with
      | nil => exact some' rfl
      | cons other below =>
        have different : name ≠ other := by
          rintro rfl
          simp [FileEntry.at?, absent] at is
        refine outside (other :: below) entry some' rfl ?_
        simpa [FileEntry.at?, FileForest.find, different] using is
  | folder name children rest ihChildren ih =>
    have made : tree.makeFolder (base ++ [name]) = some (tree.set (base ++ [name]) .folder) :=
      makeFolder_of_lies (lies_concat lies folder) (free name mem_cons_self [])
    have absent : rest.find name = none := FileForest.find_eq_none.mpr distinct.1
    have apart (path : List ν) (other : path ≠ base ++ [name]) :
        OrderedMap.get (tree.set (base ++ [name]) .folder) path = tree.get path := by
      rw [OrderedMap.get_set, if_neg other.symm]
    have baseLies : Lies (tree.set (base ++ [name]) .folder) base :=
      lies_set lies (not_concat_below base name)
    have baseFolder : OrderedMap.get (tree.set (base ++ [name]) .folder) base = some .folder :=
      (apart base (by simp)).trans folder
    have freeChildren : ∀ other ∈ children.names, ∀ path,
        OrderedMap.get (tree.set (base ++ [name]) .folder) (base ++ [name] ++ other :: path) = none := by
      intro other _ path
      rw [apart _ (by simp), append_assoc, singleton_append]
      exact free name mem_cons_self (other :: path)
    rcases ihChildren distinct.2.1 (base ++ [name]) (lies_concat baseLies baseFolder)
      (by rw [OrderedMap.get_set, if_pos rfl]) freeChildren with
      ⟨inner, builtInner, holdsInner, keepsInner⟩
    have innerAbove (path : List ν) (aside : ¬ base ++ [name] <+: path) : inner.get path = tree.get path := by
      rw [keepsInner path, apart path]
      · rintro rfl
        exact aside prefix_rfl
      · rintro below entry - rfl
        exact absurd (prefix_append _ _) aside
    have notBelow (other : ν) (path : List ν) (different : name ≠ other) :
        ¬ base ++ [name] <+: base ++ other :: path := by
      rw [prefix_append_right_inj, cons_prefix_cons]
      exact fun both => different both.1
    have innerLies : inner.Lies base := by
      intro parent listed
      rw [innerAbove parent]
      · exact lies parent listed
      · intro above
        exact not_concat_below base name (above.trans (mem_parents.mp listed).1)
    have innerFolder : inner.get base = some .folder := by
      rw [innerAbove base (not_concat_below base name)]
      exact folder
    have innerFree : ∀ other ∈ rest.names, ∀ path, inner.get (base ++ other :: path) = none := by
      intro other listed path
      rw [innerAbove _ (notBelow other path fun same => distinct.1 (same ▸ listed))]
      exact free other (mem_cons_of_mem _ listed) path
    rcases ih distinct.2.2 base innerLies innerFolder innerFree with ⟨after, built, holds, keeps⟩
    have outsideRest (path : List ν) : after.get (base ++ name :: path) = inner.get (base ++ name :: path) := by
      apply keeps
      intro below entry some' same
      rw [← append_cancel_left same]
      simp [FileEntry.at?, absent]
    refine ⟨after, ?_, ?_, ?_⟩
    · have shift : (children.nodes.map (Prod.map (name :: ·) id)).map (Prod.map (base ++ ·) id) =
          children.nodes.map (Prod.map (base ++ [name] ++ ·) id) := by
        rw [map_map]
        apply map_congr_left
        intro node _
        simp [Prod.map]
      rw [FileForest.nodes, map_append, map_cons, shift, build_append, build, foldlM_cons]
      have first : (tree.makeFolder (base ++ [name])).bind (fun made => build made
          (children.nodes.map (Prod.map (base ++ [name] ++ ·) id))) = some inner := by
        rw [made]
        exact builtInner
      exact (congrArg (Option.bind · _) first).trans built
    · intro path entry some' is
      cases path with
      | nil => exact absurd rfl some'
      | cons other path =>
        by_cases same : name = other
        · subst same
          simp only [FileEntry.at?, FileForest.find, if_pos, Option.bind_some] at is
          rw [outsideRest]
          cases path with
          | nil =>
            cases is
            rw [keepsInner (base ++ [name])]
            · rw [OrderedMap.get_set, if_pos rfl]
              rfl
            · intro below entry some' same
              exact absurd (self_eq_append_right.mp same) some'
          | cons next path =>
            have held := holdsInner (next :: path) entry nofun is
            rwa [append_assoc, singleton_append] at held
        · refine holds (other :: path) entry some' ?_
          simpa [FileEntry.at?, FileForest.find, same] using is
    · intro path outside
      rw [keeps path, keepsInner path, apart path]
      · rintro rfl
        exact outside [name] (.folder children) nofun rfl (by simp [FileEntry.at?, FileForest.find])
      · rintro below entry some' rfl is
        refine outside (name :: below) entry nofun (by simp) ?_
        simpa [FileEntry.at?, FileForest.find] using is
      rintro below entry some' rfl is
      cases below with
      | nil => exact some' rfl
      | cons other below =>
        have different : name ≠ other := by
          rintro rfl
          simp [FileEntry.at?, absent] at is
        refine outside (other :: below) entry some' rfl ?_
        simpa [FileEntry.at?, FileForest.find, different] using is

end FileTree

end Kiln.Lib
