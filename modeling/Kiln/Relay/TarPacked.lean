import Kiln.Relay.TarSource

/-!
# A tar backup under way, with its restore

The names of an archive's entries read back (`apps/relay/src/backups/tar-archives.ts:500-525`,
`:630-642`), and what holds of a backup that has packed part of a tree (`:264-418`), of a restore that has
staged the same part (`:544-628`), and of what Docker extracts. An entry is left out, or goes in.
-/

namespace Kiln.Relay
open Kiln.Lib FileTree TarBackupOptions List Path

/-! ## Names -/

variable {names : List (List Char)} {directory : Bool} {folder : List Char}

theorem trimmed_nameUnder (apart : '/' ∉ folder) (named : Named '/' names) :
    (nameUnder folder names directory).rdropWhile (· = '/') = joined '/' (folder :: names) := by
  unfold nameUnder
  cases names with
  | nil =>
    rw [if_pos rfl, joined_singleton, rdropWhile_concat_pos _ _ _ (by simp), rdropWhile_eq_self_iff]
    intro some' last
    exact apart (of_decide_eq_true last ▸ getLast_mem some')
  | cons name rest =>
    rw [if_neg (cons_ne_nil _ _), joined_cons_cons]
    rcases named.joined_last (cons_ne_nil _ _) with ⟨front, last, is, other⟩
    have kept : (folder ++ '/' :: joined '/' (name :: rest)).rdropWhile (· = '/') =
        folder ++ '/' :: joined '/' (name :: rest) := by
      rw [is, ← cons_append, ← append_assoc, rdropWhile_concat_neg _ _ _ (by simpa using other)]
    cases directory with
    | false => simpa using kept
    | true =>
      rw [if_pos rfl, rdropWhile_concat_pos _ _ _ (by simp)]
      exact kept

theorem segments_nameUnder (filled : folder ≠ []) (apart : '/' ∉ folder) (named : Named '/' names) :
    segments '/' ((nameUnder folder names directory).rdropWhile (· = '/')) = folder :: names := by
  rw [trimmed_nameUnder apart named]
  apply Named.segments_joined
  intro name listed
  rcases mem_cons.mp listed with rfl | later
  · exact ⟨filled, apart⟩
  · exact named name later

theorem pathUnder_nameUnder {operation reason : String} (apart : '/' ∉ folder) (named : Named '/' names) :
    pathUnder folder operation reason (nameUnder folder names directory) =
      (requireSafePath (joined '/' names) operation).map fun _ => joined '/' names := by
  unfold pathUnder
  rw [trimmed_nameUnder apart named]
  cases names with
  | nil =>
    rw [joined_singleton]
    exact if_pos rfl
  | cons name rest =>
    rw [joined_cons_cons]
    have longer : folder ++ '/' :: joined '/' (name :: rest) ≠ folder := by simp
    have under : (folder ++ ['/']).isPrefixOf (folder ++ '/' :: joined '/' (name :: rest)) := by
      rw [List.isPrefixOf_iff_prefix]
      exact ⟨joined '/' (name :: rest), by simp⟩
    have dropped : (folder ++ '/' :: joined '/' (name :: rest)).drop (folder.length + 1) =
        joined '/' (name :: rest) := by
      rw [drop_append, drop_eq_nil_of_le (by omega), Nat.add_sub_cancel_left, nil_append, drop_succ_cons, drop_zero]
    simp only [if_neg longer, under, not_true_eq_false, if_false, dropped]
    cases requireSafePath (joined '/' (name :: rest)) operation <;> rfl

theorem dataName_joined (named : Named '/' names) :
    dataName (joined '/' names) directory = nameUnder tarDataPrefix names directory := by
  unfold dataName nameUnder
  cases names with
  | nil => rfl
  | cons name rest =>
    rcases named.joined_last (cons_ne_nil _ _) with ⟨front, last, is, -⟩
    rw [if_neg (by rw [is]; simp), if_neg (cons_ne_nil _ _)]

variable {path : List Char}

/-- Which operation asks doesn't matter to whether a path is safe. -/
theorem requireSafePath_congr {operation : String} (other : String)
    (safe : requireSafePath path operation = .ok ()) : requireSafePath path other = .ok () := by
  unfold requireSafePath at safe ⊢
  split at safe
  · rename_i empty
    rw [if_pos empty]
  rename_i full
  rw [if_neg full]
  split at safe
  · cases safe
  · rename_i fine
    rw [if_neg fine]

theorem sourcePath_eq_ok (named : Named '/' names)
    (read : sourcePath (nameUnder tarSourcePrefix names directory) = .ok path) :
    path = joined '/' names ∧ requireSafePath path "restore.validate" = .ok () := by
  rw [sourcePath, pathUnder_nameUnder (by decide) named] at read
  cases safe : requireSafePath (joined '/' names) "create.collect" with
  | error error =>
    rw [safe] at read
    cases read
  | ok _ =>
    rw [safe] at read
    cases read
    exact ⟨rfl, requireSafePath_congr _ safe⟩

theorem archivedDataPath_dataName (named : Named '/' names)
    (safe : requireSafePath (joined '/' names) "restore.validate" = .ok ()) :
    archivedDataPath (dataName (joined '/' names) directory) = .ok (joined '/' names) := by
  rw [dataName_joined named, archivedDataPath, pathUnder_nameUnder (by decide) named, safe]
  rfl

/-! ## The source -/

variable {ι α : Type} [DecidableEq ι]

theorem find?_eq_or {β : Type} (p : β → Bool) (before after : List β) {entry : β}
    (is : p entry = true) : ∃ found, (before ++ entry :: after).find? p = some found ∧
      (found ∈ before ∨ found = entry ∧ ∀ other ∈ before, p other = false) := by
  rw [List.find?_append]
  cases earlier : before.find? p with
  | some found => exact ⟨found, rfl, .inl (mem_of_find?_eq_some earlier)⟩
  | none =>
    refine ⟨entry, by rw [Option.none_or, List.find?_cons_of_pos is], .inr ⟨rfl, ?_⟩⟩
    intro other listed
    simpa using List.find?_eq_none.mp earlier other listed

namespace SourceTree

variable {tree : SourceTree ι α} {before after : SourceNodes ι α} {entry : List (List Char) × SourceNode ι α}

theorem eq_of_path {one other : List (List Char) × SourceNode ι α} (listed : one ∈ tree.nodes)
    (listed' : other ∈ tree.nodes) (same : one.1 = other.1) : one = other :=
  inj_on_of_nodup_map tree.distinct listed listed' same

theorem not_mem_before (split : tree.nodes = before ++ entry :: after) : ∀ other ∈ before, other.1 ≠ entry.1 := by
  intro other listed same
  have distinct := tree.distinct
  rw [split, map_append, map_cons, nodup_append] at distinct
  exact distinct.2.2 other.1 (mem_map_of_mem listed) entry.1 mem_cons_self same

theorem parent_mem {path : List (List Char)} {name : List Char} {node : SourceNode ι α}
    (split : tree.nodes = before ++ (path ++ [name], node) :: after) : (path, .directory) ∈ before := by
  have short : before.length < tree.nodes.length := by
    rw [split, length_append, length_cons]
    omega
  have here : tree.nodes[before.length] = (path ++ [name], node) := by
    simp only [split, getElem_append_right (le_refl _), Nat.sub_self, getElem_cons_zero]
  have nested := tree.nested before.length short
  rw [here, dropLast_concat] at nested
  have listed := nested (by simp)
  rw [split, take_left] at listed
  exact listed

/-- The folders a path lies in come before it. -/
theorem above_mem {path above : List (List Char)} {node : SourceNode ι α}
    (split : tree.nodes = before ++ (path, node) :: after)
    (inside : above ∈ FileTree.parents path) : (above, .directory) ∈ before := by
  induction path using reverseRecOn generalizing before after node with
  | nil => simp [FileTree.parents] at inside
  | append_singleton parent name ih =>
    have listed := parent_mem split
    rw [mem_parents] at inside
    rcases prefix_concat_iff.mp inside.1 with same | inside'
    · exact absurd same inside.2
    by_cases here : above = parent
    · rw [here]
      exact listed
    · rcases append_of_mem listed with ⟨earlier, later, rfl⟩
      rw [append_assoc, cons_append] at split
      exact mem_append_left _ (ih split (mem_parents.mpr ⟨inside', here⟩))

end SourceTree

section kept

variable {tree : SourceTree ι α} {options : TarBackupOptions α} {before after : SourceNodes ι α}
  {path : List (List Char)} {node : SourceNode ι α} {inode : ι}

theorem firstName_mem {nodes : SourceNodes ι α} {first : List (List Char)} (is : firstName nodes inode = some first) :
    ∃ node, (first, node) ∈ nodes ∧ node.inode? = some inode := by
  rcases Option.map_eq_some_iff.mp is with ⟨found, there, rfl⟩
  have own := List.find?_some there
  rw [decide_eq_true_eq] at own
  exact ⟨found.2, mem_of_find?_eq_some there, own⟩

theorem keptName_mem {nodes : SourceNodes ι α} {first : List (List Char)}
    (is : keptName options nodes inode = some first) :
    ∃ node, (first, node) ∈ nodes ∧ node.inode? = some inode ∧ options.keeps (first, node) = true := by
  rcases Option.map_eq_some_iff.mp is with ⟨found, there, rfl⟩
  have both := List.find?_some there
  rw [Bool.and_eq_true, decide_eq_true_eq] at both
  exact ⟨found.2, mem_of_find?_eq_some there, both⟩

theorem keptName_of_keeps (split : tree.nodes = before ++ (path, node) :: after)
    (is : node.inode? = some inode) (keeps : options.keeps (path, node) = true) :
    ∃ first, keptName options tree.nodes inode = some first ∧
      ((first, node) ∈ before ∧ options.keeps (first, node) = true ∨
        first = path ∧ ∀ other ∈ before, other.2.inode? = some inode → options.keeps other = false) := by
  have own : ((path, node).2.inode? = some inode && options.keeps (path, node)) = true := by
    simp [is, keeps]
  rcases find?_eq_or (fun entry => entry.2.inode? = some inode && options.keeps entry) before after own
    with ⟨found, there, either⟩
  have name : keptName options tree.nodes inode = some found.1 := by
    rw [keptName, split, there]
    rfl
  refine ⟨found.1, name, ?_⟩
  rcases either with earlier | ⟨rfl, none'⟩
  · left
    have both := List.find?_some there
    rw [Bool.and_eq_true, decide_eq_true_eq] at both
    have same : found.2 = node := tree.linked found (by rw [split]; exact mem_append_left _ earlier)
      (path, node) (by rw [split]; exact mem_append_right _ mem_cons_self) inode both.1 is
    rw [← same]
    exact ⟨earlier, both.2⟩
  · right
    refine ⟨rfl, fun other listed is' => ?_⟩
    have not := none' other listed
    rw [Bool.and_eq_false_iff, decide_eq_false_iff_not] at not
    exact not.resolve_left fun refused => refused is'

theorem firstName_of_inode (split : tree.nodes = before ++ (path, node) :: after) (is : node.inode? = some inode) :
    ∃ first, firstName tree.nodes inode = some first ∧ ((first, node) ∈ before ∨ first = path) := by
  have own : decide ((path, node).2.inode? = some inode) = true := by
    simp [is]
  rcases find?_eq_or (fun entry => entry.2.inode? = some inode) before after own with
    ⟨found, there, either⟩
  have name : firstName tree.nodes inode = some found.1 := by
    rw [firstName, split, there]
    rfl
  refine ⟨found.1, name, ?_⟩
  rcases either with earlier | ⟨rfl, -⟩
  · left
    have own := List.find?_some there
    rw [decide_eq_true_eq] at own
    have same : found.2 = node := tree.linked found (by rw [split]; exact mem_append_left _ earlier)
      (path, node) (by rw [split]; exact mem_append_right _ mem_cons_self) inode own is
    rw [← same]
    exact earlier
  · exact .inr rfl

omit [DecidableEq ι] in
/-- The folders of what is kept are kept. -/
theorem keeps_above (keeps : options.keeps (path, node) = true) {above : List (List Char)}
    (inside : above ∈ FileTree.parents path) :
    options.keeps (above, (.directory : SourceNode ι α)) = true := by
  have kept : options.outside path node.isDirectory = false := by
    rw [TarBackupOptions.keeps, Bool.and_eq_true, Bool.not_eq_true'] at keeps
    exact keeps.1
  rw [outside, Bool.or_eq_false_iff, any_eq_false] at kept
  have none' : ∀ other, other <+: above → options.leavesOut other true = false := by
    intro other lies
    rcases mem_parents.mp inside with ⟨front, ne⟩
    have short : other ∈ FileTree.parents path := by
      rw [mem_parents]
      refine ⟨lies.trans front, ?_⟩
      rintro rfl
      exact ne (front.eq_of_length (le_antisymm front.length_le lies.length_le))
    simpa using kept.2 other short
  rw [TarBackupOptions.keeps, Bool.and_eq_true, Bool.not_eq_true', outside, Bool.or_eq_false_iff, any_eq_false]
  refine ⟨⟨none' above (prefix_refl _), fun other lies => ?_⟩, rfl⟩
  simpa using none' other (mem_parents.mp lies).1

end kept

/-! ## What is packed and staged so far -/

/-- The type a kept path is archived as. -/
def archivedAs (options : TarBackupOptions α) (nodes : SourceNodes ι α)
    (entry : List (List Char) × SourceNode ι α) : TarType :=
  match entry.2 with
  | .file inode _ => if keptName options nodes inode = some entry.1 then .file else .link
  | node => node.type

/-- What a kept path is staged as. -/
def stagedAs (options : TarBackupOptions α) (nodes : SourceNodes ι α) (staging : List Char) :
    SourceNode ι α → FileNode (List (List Char)) α (List Char)
  | .file inode content => .file (staging :: (keptName options nodes inode).getD []) content
  | .symlink _ target => .symlink target
  | .directory | .special _ _ => .folder

/-- The rules of a restore that has checked what a backup's have. -/
def ArchiveRules.restoring (rules : ArchiveRules) : ArchiveRules :=
  { rules with operation := "restore.validate" }

/-- A kept file that has been read, some name of which was left out before its first that is kept. -/
def Materialized (options : TarBackupOptions α) (nodes before : SourceNodes ι α) (linked path : List Char) :
    Prop :=
  ∃ inode first kept, firstName nodes inode = some first ∧ keptName options nodes inode = some kept ∧
    first ≠ kept ∧ kept ∈ before.map Prod.fst ∧
    linked = joined '/' first ∧ path = joined '/' kept

/-- A backup that has packed part of a tree, and the restore of what it has packed. -/
structure Packed (options : TarBackupOptions α) (tree : SourceTree ι α) (staging : List Char)
    (mount : StagedTree α) (before : SourceNodes ι α) (state : Repacking α) (staged : Staging α)
    (files : StagedTree α) : Prop where
  excluded : ∀ leading, leading ∈ state.excluded ↔
    ∃ path, (path, .directory) ∈ before ∧ options.outside path true = true ∧ leading = joined '/' path
  seen : ∀ path type, state.rules.seen.get path = some type ↔
    ∃ entry ∈ before, options.keeps entry = true ∧ path = joined '/' entry.1 ∧
      type = archivedAs options tree.nodes entry
  safe : ∀ path type, state.rules.seen.get path = some type → requireSafePath path "restore.validate" = .ok ()
  materialized : ∀ linked path, state.materialized.get linked = some path ↔
    Materialized options tree.nodes before linked path
  own : ∀ path inode target, (path, .symlink inode target) ∈ before →
    options.keeps (path, (.symlink inode target : SourceNode ι α)) = true →
    firstName tree.nodes inode = some path
  rules : staged.rules = state.rules.restoring
  kept : ∀ entry ∈ before, options.keeps entry = true →
    files.get (staging :: entry.1) = some (stagedAs options tree.nodes staging entry.2)
  only : ∀ path, path ≠ [] → ∀ node, files.get (staging :: path) = some node →
    ∃ entry ∈ before, entry.1 = path ∧ options.keeps entry = true
  others : ∀ path, path.head? ≠ some staging → files.get path = mount.get path
  reserved : files.get [staging] = some .folder

/-- The entries that stand for kept files are in the archive. -/
def PacksSoFar (options : TarBackupOptions α) (nodes before : SourceNodes ι α) (archive : List (TarFile α)) : Prop :=
  ∀ path inode content, (path, .file inode content) ∈ before →
    options.keeps (path, (.file inode content : SourceNode ι α)) = true →
    ∃ first, keptName options nodes inode = some first ∧ ∃ entry ∈ archive,
      entry.header.name = dataName (joined '/' path) false ∧
      if first = path then entry.header.type = some .file ∧ entry.body = content
      else entry.header.type = some .link ∧ entry.header.linkname = some (dataName (joined '/' first) false)

/-! ## One entry -/

omit [DecidableEq ι] in
theorem joined_eq_nil (named : Named '/' names) : joined '/' names = [] ↔ names = [] := by
  constructor
  · intro empty
    by_contra filled
    rcases named.joined_last filled with ⟨front, last, is, -⟩
    rw [empty] at is
    exact absurd is (by simp)
  · rintro rfl
    rfl

theorem ArchiveRules.Accepts.restoring {rules after : ArchiveRules} {type : Option TarType}
    {target : Option (List Char)} (accepts : rules.Accepts path type target after) :
    rules.restoring.Accepts path type target after.restoring where
  new := accepts.new
  few := accepts.few
  unreserved := accepts.unreserved
  direct := accepts.direct
  archived := accepts.archived
  target := accepts.target
  root := accepts.root
  after := by
    rw [accepts.after]
    rfl

/-- An entry of a backup that a restore reads back. -/
structure ReadsBack (entry : TarFile α) (names : List (List Char)) (kind : TarType)
    (target : Option (List (List Char))) : Prop where
  name : entry.header.name = dataName (joined '/' names) (decide (kind = .directory))
  type : entry.header.type = some kind
  link : kind = .link → ∃ names, target = some names ∧ names ≠ [] ∧ Named '/' names ∧
    requireSafePath (joined '/' names) "restore.validate" = .ok () ∧
    entry.header.linkname = some (dataName (joined '/' names) false)
  plain : kind ≠ .link → target = none

/-- What a tree is to have where Docker extracts an entry. -/
def Extracts (files : StagedTree α) (staging : List Char) (names : List (List Char))
    (entry : TarFile α) (target : Option (List (List Char)))
    (node : FileNode (List (List Char)) α (List Char)) : TarType → Prop
  | .directory => node = .folder
  | .symlink => node = .symlink (entry.header.linkname.getD [])
  | .link => ∃ identity content, node = .file identity content ∧
      ∀ names, target = some names → files.Lies (staging :: names) ∧
        files.get (staging :: names) = some (.file identity content)
  | _ => node = .file (staging :: names) entry.body

section entry

variable {entry : TarFile α} {names : List (List Char)} {kind : TarType}
  {target : Option (List (List Char))} {staging : List Char} {staged : Staging α}
  {rules after : ArchiveRules} {files : StagedTree α}

theorem stageEntry_eq (back : ReadsBack entry names kind target) (named : Named '/' names)
    (safe : requireSafePath (joined '/' names) "restore.validate" = .ok ())
    (accepts : rules.Accepts (joined '/' names) (some kind) (target.map (joined '/')) after)
    (same : staged.rules = rules.restoring) :
    ∃ root, stageEntry staging staged entry = .ok {
      rules := after.restoring
      root
      put := staged.put ++ [⟨entry.header.put staging (joined '/' names) (target.map (joined '/')), entry.body⟩] } := by
  have linkTarget : entry.header.linkTarget = .ok (target.map (joined '/')) := by
    unfold TarHeader.linkTarget
    rw [back.type]
    by_cases link : kind = .link
    · rcases back.link link with ⟨names, rfl, -, named', safe', linkname⟩
      rw [if_pos (by rw [link]), linkname, Option.getD_some, archivedDataPath_dataName named' safe']
      rfl
    · rw [if_neg (fun is => link (Option.some.inj is)), back.plain link]
      rfl
  refine ⟨if joined '/' names = [] then some entry.header.restoredRoot else staged.root, ?_⟩
  apply bind_eq_ok.mpr
  refine ⟨joined '/' names, ?_, ?_⟩
  · rw [back.name]
    exact archivedDataPath_dataName named safe
  apply bind_eq_ok.mpr
  refine ⟨_, linkTarget, ?_⟩
  apply bind_eq_ok.mpr
  refine ⟨after.restoring, ?_, rfl⟩
  rw [ArchiveRules.check_eq_ok, back.type, same]
  exact accepts.restoring

omit [DecidableEq ι] in
theorem put_name (named : Named '/' names) (text : Option (List Char)) :
    (entry.header.put staging (joined '/' names) text).name =
      nameUnder staging names (decide (entry.header.type = some .directory)) := by
  unfold TarHeader.put nameUnder
  simp only [joined_eq_nil named, decide_eq_true_eq]

theorem segments_put (filled : staging ≠ []) (apart : '/' ∉ staging) (named : Named '/' names)
    (text : Option (List Char)) :
    segments '/' ((entry.header.put staging (joined '/' names) text).name.rdropWhile (· = '/')) = staging :: names := by
  rw [put_name named, segments_nameUnder filled apart named]

theorem extractEntry_put (back : ReadsBack entry names kind target) (filled : staging ≠ [])
    (apart : '/' ∉ staging) (named : Named '/' names) (lies : files.Lies (staging :: names))
    (new : files.get (staging :: names) = none) (node : FileNode (List (List Char)) α (List Char))
    (is : Extracts files staging names entry target node kind) :
    extractEntry files ⟨entry.header.put staging (joined '/' names)
      (target.map (joined '/')), entry.body⟩ = some (files.set (staging :: names) node) := by
  unfold extractEntry
  rw [segments_put filled apart named, show (entry.header.put staging (joined '/' names)
    (target.map (joined '/'))).type = some kind from back.type]
  cases kind with
  | directory =>
    rw [is]
    exact makeFolder_of_lies lies new
  | symlink =>
    obtain rfl : target = none := back.plain nofun
    rw [is]
    exact create_of_lies lies new
  | file =>
    rw [is]
    exact create_of_lies lies new
  | special name =>
    rw [is]
    exact create_of_lies lies new
  | link =>
    rcases back.link rfl with ⟨linked, rfl, some', named', -, -⟩
    rcases is with ⟨identity, content, rfl, there⟩
    rcases there linked rfl with ⟨targetLies, held⟩
    have reads : segments '/' (((entry.header.put staging (joined '/' names)
        ((some linked).map (joined '/'))).linkname).getD []) = staging :: linked := by
      show segments '/' (staging ++ '/' :: joined '/' linked) = staging :: linked
      have plain : segments '/' ((nameUnder staging linked false).rdropWhile (· = '/')) =
          staging :: linked := segments_nameUnder filled apart named'
      rw [trimmed_nameUnder apart named'] at plain
      cases linked with
      | nil => exact absurd rfl some'
      | cons first rest =>
        rw [joined_cons_cons] at plain
        exact plain
    simp only [reads]
    exact link_of_lies lies new targetLies held

end entry

section step

variable {tree : SourceTree ι α} {options : TarBackupOptions α} {staging : List Char}
  {mount files : StagedTree α} {before after : SourceNodes ι α} {state : Repacking α}
  {staged : Staging α} {path : List (List Char)} {node : SourceNode ι α}

theorem SourceTree.named_of_split (split : tree.nodes = before ++ (path, node) :: after) : Named '/' path :=
  tree.named (path, node) (by rw [split]; exact mem_append_right _ mem_cons_self)

theorem SourceTree.named_of_mem (split : tree.nodes = before ++ (path, node) :: after)
    {entry : List (List Char) × SourceNode ι α} (listed : entry ∈ before) : Named '/' entry.1 :=
  tree.named entry (by rw [split]; exact mem_append_left _ listed)

omit [DecidableEq ι] in
theorem contains_joined {names : List (List Char)} (named : Named '/' names) :
    (joined '/' names).contains '/' = decide (2 ≤ names.length) := by
  cases names with
  | nil => rfl
  | cons name rest =>
    cases rest with
    | nil =>
      rw [joined_singleton]
      simpa using (named name mem_cons_self).2
    | cons next later =>
      rw [joined_cons_cons]
      simp

omit [DecidableEq ι] in
theorem leavesOut_eq {names : List (List Char)} (named : Named '/' names) (directory : Bool) :
    options.leavesOut names directory = (joined '/' names ≠ [] && ((!(joined '/' names).contains '/' &&
          tarStagingPrefix.isPrefixOf (joined '/' names)) ||
        backupPathIsExcluded options.minimatch (joined '/' names) directory options.exclude)) := by
  rw [contains_joined named]
  cases names with
  | nil => rfl
  | cons name rest =>
    rcases named.joined_last (cons_ne_nil _ _) with ⟨front, last, is, -⟩
    have filled : joined '/' (name :: rest) ≠ [] := by
      rw [is]
      simp
    cases rest with
    | nil =>
      rw [joined_singleton] at filled ⊢
      simp [leavesOut, filled]
    | cons next later =>
      simp [leavesOut, filled]

namespace Packed

variable (packed : Packed options tree staging mount before state staged files)
include packed

theorem skipped (split : tree.nodes = before ++ (path, node) :: after) (directory : Bool) :
    state.skipped options (joined '/' path) directory = options.outside path directory := by
  have named := SourceTree.named_of_split split
  have parents : (joined '/' path ≠ [] && state.excluded.any fun leading =>
      (leading ++ ['/']).isPrefixOf (joined '/' path)) =
      (FileTree.parents path).any fun above => options.leavesOut above true := by
    rw [Bool.eq_iff_iff, Bool.and_eq_true, any_eq_true, any_eq_true]
    constructor
    · rintro ⟨-, leading, listed, front⟩
      rcases (packed.excluded leading).mp listed with ⟨above, there, out, rfl⟩
      have some' : above ≠ [] := by
        rintro rfl
        simp [outside, leavesOut, FileTree.parents] at out
      have named' := SourceTree.named_of_mem split there
      have lies : above ∈ FileTree.parents path := by
        rw [mem_parents]
        exact (joined_sep_prefix_iff '/' some' (fun name listed => (named' name listed).2)
          fun name listed => (named name listed).2).mp (List.isPrefixOf_iff_prefix.mp front)
      rw [outside, Bool.or_eq_true, any_eq_true] at out
      rcases out with here | ⟨other, higher, out⟩
      · exact ⟨above, lies, here⟩
      · refine ⟨other, ?_, out⟩
        rw [mem_parents] at higher lies ⊢
        refine ⟨higher.1.trans lies.1, ?_⟩
        rintro rfl
        exact lies.2 (lies.1.eq_of_length (le_antisymm lies.1.length_le higher.1.length_le))
    · rintro ⟨above, lies, out⟩
      have there := SourceTree.above_mem split lies
      have named' := SourceTree.named_of_mem split there
      have some' : above ≠ [] := by
        rintro rfl
        cases out
      rw [mem_parents] at lies
      have filled : path ≠ [] := by
        rintro rfl
        exact some' (prefix_nil.mp lies.1)
      rcases named.joined_last filled with ⟨front, last, is, -⟩
      refine ⟨by rw [is]; simp, joined '/' above, (packed.excluded _).mpr ⟨above, there, ?_, rfl⟩, ?_⟩
      · rw [outside, out, Bool.true_or]
      · exact List.isPrefixOf_iff_prefix.mpr ((joined_sep_prefix_iff '/' some'
          (fun name listed => (named' name listed).2) fun name listed => (named name listed).2).mpr lies)
  rw [outside, leavesOut_eq named, ← parents, Repacking.skipped, ← Bool.and_or_distrib_left, Bool.or_assoc]
  congr 1
  rw [Bool.or_comm, Bool.or_assoc]

theorem excluded_append {excluded : List (List Char)}
    (is : excluded = if node.isDirectory && options.outside path node.isDirectory then
      state.excluded ++ [joined '/' path] else state.excluded) :
    ∀ leading, leading ∈ excluded ↔ ∃ p, (p, .directory) ∈ before ++ [(path, node)] ∧ options.outside p true = true ∧
        leading = joined '/' p := by
  intro leading
  have earlier : (∃ p, (p, .directory) ∈ before ∧ options.outside p true = true ∧ leading = joined '/' p) →
      ∃ p, (p, .directory) ∈ before ++ [(path, node)] ∧ options.outside p true = true ∧ leading = joined '/' p := by
    rintro ⟨p, there, rest⟩
    exact ⟨p, mem_append_left _ there, rest⟩
  subst is
  constructor
  · intro listed
    split at listed
    · rename_i out
      rcases mem_append.mp listed with listed | listed
      · exact earlier ((packed.excluded leading).mp listed)
      · cases node with
        | directory =>
          rw [Bool.and_eq_true] at out
          exact ⟨path, mem_append_right _ mem_cons_self, out.2, mem_singleton.mp listed⟩
        | file _ _ | symlink _ _ | special _ _ => cases out
    · exact earlier ((packed.excluded leading).mp listed)
  · rintro ⟨p, there, out, same⟩
    rcases mem_append.mp there with there | there
    · have listed := (packed.excluded leading).mpr ⟨p, there, out, same⟩
      split
      · exact mem_append_left _ listed
      · exact listed
    · cases mem_singleton.mp there
      rw [if_pos (by rw [SourceNode.isDirectory, Bool.true_and]; exact out)]
      exact mem_append_right _ (mem_singleton.mpr same)

omit packed in
theorem materialized_append {linked name : List Char} :
    Materialized options tree.nodes (before ++ [(path, node)]) linked name ↔
      Materialized options tree.nodes before linked name ∨ ∃ inode first, firstName tree.nodes inode = some first ∧
          keptName options tree.nodes inode = some path ∧ first ≠ path ∧
          linked = joined '/' first ∧ name = joined '/' path := by
  constructor
  · rintro ⟨inode, first, kept, isFirst, isKept, other, listed, rest⟩
    rw [map_append, mem_append] at listed
    rcases listed with listed | here
    · exact .inl ⟨inode, first, kept, isFirst, isKept, other, listed, rest⟩
    · obtain rfl := mem_singleton.mp here
      exact .inr ⟨inode, first, isFirst, isKept, other, rest⟩
  rintro (⟨inode, first, kept, isFirst, isKept, other, listed, rest⟩ |
    ⟨inode, first, isFirst, isKept, other, rest⟩)
  · refine ⟨inode, first, kept, isFirst, isKept, other, ?_, rest⟩
    rw [map_append]
    exact mem_append_left _ listed
  · refine ⟨inode, first, path, isFirst, isKept, other, ?_, rest⟩
    rw [map_append]
    exact mem_append_right _ mem_cons_self

/-- What a backup isn't for is left out. -/
theorem skip (split : tree.nodes = before ++ (path, node) :: after)
    (keeps : options.keeps (path, node) = false) {state' : Repacking α}
    (rules : state'.rules = state.rules) (materialized : state'.materialized = state.materialized)
    (excluded : state'.excluded = if node.isDirectory && options.outside path node.isDirectory then
      state.excluded ++ [joined '/' path] else state.excluded) :
    Packed options tree staging mount (before ++ [(path, node)]) state' staged files where
  excluded := packed.excluded_append excluded
  seen p type := by
    rw [rules, packed.seen]
    constructor
    · rintro ⟨entry, listed, rest⟩
      exact ⟨entry, mem_append_left _ listed, rest⟩
    · rintro ⟨entry, listed, kept, rest⟩
      rcases mem_append.mp listed with listed | here
      · exact ⟨entry, listed, kept, rest⟩
      · rw [mem_singleton.mp here, keeps] at kept
        cases kept
  safe := by
    rw [rules]
    exact packed.safe
  materialized linked name := by
    rw [materialized, packed.materialized, materialized_append]
    refine ⟨.inl, fun either => either.resolve_right ?_⟩
    rintro ⟨inode, first, -, isKept, -⟩
    rcases keptName_mem isKept with ⟨other, there, -, kept⟩
    have listed : (path, node) ∈ tree.nodes := by
      rw [split]
      exact mem_append_right _ mem_cons_self
    have same := SourceTree.eq_of_path there listed rfl
    rw [same, keeps] at kept
    cases kept
  own p inode target there kept := by
    rcases mem_append.mp there with there | here
    · exact packed.own p inode target there kept
    · rw [mem_singleton.mp here, keeps] at kept
      cases kept
  rules := by
    rw [rules]
    exact packed.rules
  kept entry listed kept := by
    rcases mem_append.mp listed with listed | here
    · exact packed.kept entry listed kept
    · rw [mem_singleton.mp here, keeps] at kept
      cases kept
  only p some' found there := by
    rcases packed.only p some' found there with ⟨entry, listed, rest⟩
    exact ⟨entry, mem_append_left _ listed, rest⟩
  others := packed.others
  reserved := packed.reserved

/-- What a backup is for goes in, and is staged. -/
theorem add (split : tree.nodes = before ++ (path, node) :: after)
    (keeps : options.keeps (path, node) = true) {target : Option (List Char)} {rules : ArchiveRules}
    (accepts : state.rules.Accepts (joined '/' path) (some (archivedAs options tree.nodes (path, node))) target rules)
    (safe : requireSafePath (joined '/' path) "restore.validate" = .ok ())
    (own : ∀ inode target, node = .symlink inode target → firstName tree.nodes inode = some path)
    {state' : Repacking α} (rules' : state'.rules = rules) (excluded : state'.excluded = state.excluded)
    (materialized : ∀ linked name, state'.materialized.get linked = some name ↔
      Materialized options tree.nodes (before ++ [(path, node)]) linked name)
    {staged' : Staging α} (staged'Rules : staged'.rules = rules.restoring) {files' : StagedTree α}
    (put : ∀ p, files'.get p = if staging :: path = p then
      some (stagedAs options tree.nodes staging node) else files.get p) :
    Packed options tree staging mount (before ++ [(path, node)]) state' staged' files' where
  excluded := by
    refine packed.excluded_append (excluded.trans (if_neg ?_).symm)
    intro out
    rw [TarBackupOptions.keeps, Bool.and_eq_true, Bool.not_eq_true'] at keeps
    rw [Bool.and_eq_true, keeps.1] at out
    exact Bool.noConfusion out.2
  seen p type := by
    rw [rules', accepts.after, OrderedMap.get_set]
    split
    · rename_i here
      subst here
      rw [Option.getD_some, Option.some.injEq]
      constructor
      · rintro rfl
        exact ⟨(path, node), mem_append_right _ mem_cons_self, keeps, rfl, rfl⟩
      rintro ⟨entry, listed, kept, same, is⟩
      rcases mem_append.mp listed with listed | here
      · have there := (packed.seen _ _).mpr ⟨entry, listed, kept, same, rfl⟩
        rw [accepts.new] at there
        cases there
      · rw [is, mem_singleton.mp here]
    · rename_i other
      rw [packed.seen]
      constructor
      · rintro ⟨entry, listed, rest⟩
        exact ⟨entry, mem_append_left _ listed, rest⟩
      · rintro ⟨entry, listed, kept, same, is⟩
        rcases mem_append.mp listed with listed | here
        · exact ⟨entry, listed, kept, same, is⟩
        · rw [mem_singleton.mp here] at same
          exact absurd same.symm other
  safe p type found := by
    rw [rules', accepts.after, OrderedMap.get_set] at found
    split at found
    · rename_i here
      rw [← here]
      exact safe
    · exact packed.safe p type found
  materialized := materialized
  own p inode target there kept := by
    rcases mem_append.mp there with there | here
    · exact packed.own p inode target there kept
    · cases mem_singleton.mp here
      exact own inode target rfl
  rules := by rw [staged'Rules, rules']
  kept entry listed kept := by
    rw [put]
    rcases mem_append.mp listed with listed | here
    · rw [if_neg]
      · exact packed.kept entry listed kept
      · intro same
        exact SourceTree.not_mem_before split entry listed (List.cons.inj same).2.symm
    · rw [mem_singleton.mp here, if_pos rfl]
  only p some' found there := by
    rw [put] at there
    split at there
    · rename_i same
      refine ⟨(path, node), mem_append_right _ mem_cons_self, ?_, keeps⟩
      exact (List.cons.inj same).2
    · rcases packed.only p some' found there with ⟨entry, listed, rest⟩
      exact ⟨entry, mem_append_left _ listed, rest⟩
  others p apart := by
    rw [put, if_neg]
    · exact packed.others p apart
    · rintro rfl
      exact apart rfl
  reserved := by
    rw [put]
    split
    · rename_i same
      have empty : path = [] := (List.cons.inj same).2
      have root := accepts.root (by rw [empty]; rfl)
      cases node with
      | directory => rfl
      | file inode content =>
        simp only [archivedAs] at root
        split at root <;> exact nomatch root
      | symlink inode target => cases root
      | special inode type => cases root
    · exact packed.reserved

theorem lies (root : mount.get [] = some .folder) {front rest : SourceNodes ι α}
    (split : tree.nodes = front ++ (path, node) :: rest) (within : ∀ entry ∈ front, entry ∈ before)
    (keeps : options.keeps (path, node) = true) : Lies files (staging :: path) := by
  intro parent inside
  rw [mem_parents] at inside
  cases parent with
  | nil => rw [packed.others [] (by simp), root]
  | cons name above =>
    obtain ⟨rfl, leads⟩ := cons_prefix_cons.mp inside.1
    have strict : above ∈ FileTree.parents path := by
      rw [mem_parents]
      exact ⟨leads, fun same => inside.2 (by rw [same])⟩
    exact packed.kept _ (within _ (SourceTree.above_mem split strict)) (keeps_above keeps strict)

theorem new (split : tree.nodes = before ++ (path, node) :: after) (some' : path ≠ []) :
    files.get (staging :: path) = none := by
  cases found : files.get (staging :: path) with
  | none => rfl
  | some held =>
    rcases packed.only path some' held found with ⟨entry, listed, same, -⟩
    exact absurd same (SourceTree.not_mem_before split entry listed)

end Packed

/-- A backup, its restore and what Docker extracts, one path of the source on. -/
def Advances (options : TarBackupOptions α) (tree : SourceTree ι α) (staging : List Char)
    (mount : StagedTree α) (before : SourceNodes ι α) (entry : List (List Char) × SourceNode ι α)
    (state state' : Repacking α) (staged : Staging α) (files : StagedTree α) : Prop :=
  ∃ added staged' puts files', state'.packed = state.packed ++ added ∧
    added.foldlM (stageEntry staging) staged = .ok staged' ∧ staged'.put = staged.put ++ puts ∧
    puts.foldlM extractEntry files = some files' ∧
    Packed options tree staging mount (before ++ [entry]) state' staged' files' ∧
    PacksSoFar options tree.nodes [entry] added

theorem packsSoFar_of_not_keeps {entry : List (List Char) × SourceNode ι α}
    (keeps : options.keeps entry = false) : PacksSoFar options tree.nodes [entry] [] := by
  intro path inode content listed kept
  rw [mem_singleton.mp listed, keeps] at kept
  cases kept

namespace Packed

variable (packed : Packed options tree staging mount before state staged files)
include packed

theorem advances_skip (split : tree.nodes = before ++ (path, node) :: after)
    (keeps : options.keeps (path, node) = false) {state' : Repacking α}
    (rules : state'.rules = state.rules) (materialized : state'.materialized = state.materialized)
    (excluded : state'.excluded = if node.isDirectory && options.outside path node.isDirectory then
      state.excluded ++ [joined '/' path] else state.excluded)
    (same : state'.packed = state.packed) :
    Advances options tree staging mount before (path, node) state state' staged files :=
  ⟨[], staged, [], files, by rw [same, append_nil], rfl, (append_nil _).symm, rfl,
    packed.skip split keeps rules materialized excluded, packsSoFar_of_not_keeps keeps⟩

theorem advances_add (root : mount.get [] = some .folder) (filled : staging ≠ [])
    (apart : '/' ∉ staging) (split : tree.nodes = before ++ (path, node) :: after)
    (keeps : options.keeps (path, node) = true) {entry : TarFile α}
    (target : Option (List (List Char))) (rules : ArchiveRules) {state' : Repacking α}
    (back : ReadsBack entry path (archivedAs options tree.nodes (path, node)) target)
    (accepts : state.rules.Accepts (joined '/' path)
      (some (archivedAs options tree.nodes (path, node))) (target.map (joined '/')) rules)
    (safe : requireSafePath (joined '/' path) "restore.validate" = .ok ())
    (own : ∀ inode target, node = .symlink inode target → firstName tree.nodes inode = some path)
    (is : Extracts files staging path entry target (stagedAs options tree.nodes staging node)
      (archivedAs options tree.nodes (path, node)))
    (rules' : state'.rules = rules) (excluded : state'.excluded = state.excluded)
    (added : state'.packed = state.packed ++ [entry])
    (materialized : ∀ linked name, state'.materialized.get linked = some name ↔
      Materialized options tree.nodes (before ++ [(path, node)]) linked name)
    (packs : PacksSoFar options tree.nodes [(path, node)] [entry]) :
    Advances options tree staging mount before (path, node) state state' staged files := by
  have named := SourceTree.named_of_split split
  rcases stageEntry_eq back named safe accepts packed.rules with ⟨kept, ran⟩
  refine ⟨[entry], ⟨rules.restoring, kept, staged.put ++ [⟨entry.header.put staging
    (joined '/' path) (target.map (joined '/')), entry.body⟩]⟩, [⟨entry.header.put staging
    (joined '/' path) (target.map (joined '/')), entry.body⟩], if path = [] then files else
    files.set (staging :: path) (stagedAs options tree.nodes staging node), added, ?_, rfl, ?_, ?_, packs⟩
  · rw [foldlM_cons, ran]
    rfl
  · rw [foldlM_cons]
    by_cases empty : path = []
    · subst empty
      rw [if_pos rfl]
      have directory := accepts.root rfl
      have extracted : extractEntry files ⟨entry.header.put staging (joined '/' [])
          (target.map (joined '/')), entry.body⟩ = some files := by
        unfold extractEntry
        rw [segments_put filled apart named, show (entry.header.put staging (joined '/' [])
          (target.map (joined '/'))).type = some .directory from back.type.trans directory]
        show makeFolder files [staging] = some files
        rw [makeFolder, packed.reserved]
      rw [extracted]
      rfl
    · rw [if_neg empty, extractEntry_put back filled apart named (packed.lies root split (fun _ => id) keeps)
        (packed.new split empty) _ is]
      rfl
  · refine packed.add split keeps accepts safe own rules' excluded materialized rfl ?_
    intro p
    by_cases empty : path = []
    · subst empty
      rw [if_pos rfl]
      split
      · rename_i here
        have directory := accepts.root rfl
        rw [← here, packed.reserved]
        cases node with
        | directory => rfl
        | file inode content =>
          simp only [archivedAs] at directory
          split at directory <;> cases directory
        | symlink inode target => cases directory
        | special inode type => cases directory
      · rfl
    · rw [if_neg empty, OrderedMap.get_set]

end Packed

end step

end Kiln.Relay
