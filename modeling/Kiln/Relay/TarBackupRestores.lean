import Kiln.Relay.TarPacked

/-!
# What a tar backup makes, a restore takes

`createTarBackup` of a tree (`apps/relay/src/backups/tar-archives.ts:81-113`, `:264-418`) and `stage` of
its archive (`:544-628`) make the same checks in the same order, each on the same path, so that a restore
accepts what a backup packed. A hard link is taken to name the first kept name of its file.
-/

namespace Kiln.Relay
open Kiln.Lib SourceTree List

variable {ι α : Type} [DecidableEq ι]

section step

variable {tree : SourceTree ι α} {options : TarBackupOptions α} {staging : List Char}
  {mount files : StagedTree α} {before after : SourceNodes ι α} {state : Repacking α}
  {staged : Staging α} {path : List (List Char)} {node : SourceNode ι α}

namespace Packed

variable (packed : Packed options tree staging mount before state staged files)
include packed

variable {state' : Repacking α}

/-- The rest of a state has no part in it. -/
theorem of_same (excluded : state'.excluded = state.excluded) (rules : state'.rules = state.rules)
    (materialized : state'.materialized = state.materialized) :
    Packed options tree staging mount before state' staged files where
  excluded := excluded ▸ packed.excluded
  seen := rules ▸ packed.seen
  safe := rules ▸ packed.safe
  materialized := materialized ▸ packed.materialized
  own := packed.own
  rules := rules ▸ packed.rules
  kept := packed.kept
  only := packed.only
  others := packed.others
  reserved := packed.reserved

/-- The first name of a file that isn't its first kept one is not noted as read. -/
theorem materialized_own (split : tree.nodes = before ++ (path, node) :: after)
    (own : ∀ inode, node.inode? = some inode → firstName tree.nodes inode = some path)
    (linked name : List Char) : state.materialized.get linked = some name ↔
      Materialized options tree.nodes (before ++ [(path, node)]) linked name := by
  rw [packed.materialized, materialized_append]
  refine ⟨.inl, fun either => either.resolve_right ?_⟩
  rintro ⟨inode, first, isFirst, isKept, other, -⟩
  rcases keptName_mem isKept with ⟨node', there, is, -⟩
  have listed : (path, node) ∈ tree.nodes := by
    rw [split]
    exact mem_append_right _ mem_cons_self
  have same := eq_of_path there listed rfl
  obtain rfl : node' = node := (Prod.mk.inj same).2
  rw [own inode is] at isFirst
  exact other (Option.some.inj isFirst).symm

variable {first : List (List Char)} {inode : ι}

theorem linked_eq_some (split : tree.nodes = before ++ (path, node) :: after) (is : node.inode? = some inode)
    (isFirst : firstName tree.nodes inode = some first) {target : List Char}
    (found : (if state.rules.isFile (Path.joined '/' first) then some (Path.joined '/' first)
      else state.materialized.get (Path.joined '/' first)) = some target) :
    ∃ kept content, keptName options tree.nodes inode = some kept ∧ (kept, node) ∈ before ∧
      options.keeps (kept, node) = true ∧ target = Path.joined '/' kept ∧ node = .file inode content := by
  have listed : (path, node) ∈ tree.nodes := by
    rw [split]
    exact mem_append_right _ mem_cons_self
  rcases firstName_mem isFirst with ⟨firstNode, firstThere, firstIs⟩
  obtain rfl : firstNode = node := tree.linked _ firstThere _ listed inode firstIs is
  split at found
  · rename_i isFile
    cases found
    rcases (packed.seen _ _).mp (of_decide_eq_true isFile) with ⟨entry, there, keeps, same, archived⟩
    have there' : entry ∈ tree.nodes := by
      rw [split]
      exact mem_append_left _ there
    obtain rfl := eq_of_path firstThere there' ((tree.named _ firstThere).joined_injective (tree.named _ there') same)
    cases firstNode with
    | file inode' content =>
      cases is
      simp only [archivedAs] at archived
      split at archived
      · rename_i kept
        exact ⟨first, content, kept, there, keeps, rfl, rfl⟩
      · cases archived
    | directory | symlink _ _ | special _ _ => cases archived
  · rcases (packed.materialized _ _).mp found with
      ⟨inode', first', kept, isFirst', isKept, other, there, same, rfl⟩
    rcases firstName_mem isFirst' with ⟨firstNode', firstThere', firstIs'⟩
    have one := eq_of_path firstThere firstThere'
      ((tree.named _ firstThere).joined_injective (tree.named _ firstThere') same)
    cases one
    cases firstIs'.symm.trans firstIs
    rcases keptName_mem isKept with ⟨keptNode, keptThere, keptIs, keeps⟩
    obtain rfl : keptNode = firstNode := tree.linked _ keptThere _ listed _ keptIs is
    rcases mem_map.mp there with ⟨entry, there, same⟩
    have inBefore : (kept, keptNode) ∈ before := by
      rw [eq_of_path keptThere (by rw [split]; exact mem_append_left _ there) same.symm]
      exact there
    cases keptNode with
    | file inode'' content =>
      cases is
      exact ⟨kept, content, isKept, inBefore, keeps, rfl, rfl⟩
    | directory => cases is
    | symlink inode'' target =>
      cases is
      have own := packed.own _ _ _ inBefore keeps
      rw [isFirst] at own
      exact absurd (Option.some.inj own) other
    | special _ _ =>
      rw [TarBackupOptions.keeps, SourceNode.isSpecial, Bool.not_true, Bool.and_false] at keeps
      cases keeps

theorem linked_eq_none (split : tree.nodes = before ++ (path, node) :: after) {content : α} (is : node = .file inode content)
    (isFirst : firstName tree.nodes inode = some first) (keeps : options.keeps (path, node) = true)
    (found : (if state.rules.isFile (Path.joined '/' first) then some (Path.joined '/' first)
      else state.materialized.get (Path.joined '/' first)) = none) :
    keptName options tree.nodes inode = some path := by
  rcases keptName_of_keeps split (by rw [is]; rfl) keeps with ⟨kept, isKept, ⟨there, keeps'⟩ | ⟨rfl, -⟩⟩
  · by_cases same : first = kept
    · subst same
      have seen := (packed.seen (Path.joined '/' first) .file).mpr
        ⟨(first, node), there, keeps', rfl, by simp [archivedAs, is, isKept]⟩
      rw [if_pos (show state.rules.isFile _ = true from decide_eq_true seen)] at found
      cases found
    · have read := (packed.materialized (Path.joined '/' first) (Path.joined '/' kept)).mpr
        ⟨inode, first, kept, isFirst, isKept, same, mem_map_of_mem there, rfl, rfl⟩
      split at found
      · cases found
      · rw [read] at found
        cases found
  · exact isKept

omit packed in
theorem readOneFile_eq_ok (reads : options.Reads tree) (listed : (path, node) ∈ tree.nodes)
    (notFolder : node.isDirectory = false) {held : TarFile α}
    (opened : readOneFile options (Path.joined '/' path) = .ok held) :
    ∃ inode, node = .file inode held.body := by
  rcases bind_eq_ok.mp opened with ⟨archive, given, found⟩
  cases one : archive.find? fun entry => entry.header.type = some .file with
  | none =>
    rw [one] at found
    cases found
  | some entry =>
    rw [one] at found
    obtain rfl := pure_eq_ok.mp found
    have isFile := find?_some one
    rw [decide_eq_true_eq] at isFile
    exact reads.one _ listed archive notFolder given entry (mem_of_find?_eq_some one) isFile

variable {file : TarFile α}

/-- A path that is archived as what it is. -/
theorem step_own (root : mount.get [] = some .folder) (filled : staging ≠ [])
    (apart : '/' ∉ staging) (split : tree.nodes = before ++ (path, node) :: after)
    (keeps : options.keeps (path, node) = true)
    (safe : requireSafePath (Path.joined '/' path) "restore.validate" = .ok ()) (archives : tree.Archives (path, node) file)
    (own : ∀ inode, node.inode? = some inode → firstName tree.nodes inode = some path)
    (ran : state.add (Path.joined '/' path) file.header.type none ⟨{ file.header with
      name := dataName (Path.joined '/' path) (decide (file.header.type = some .directory))
      pax := entryPax file.header.pax }, file.body⟩ = .ok state') :
    Advances options tree staging mount before (path, node) state state' staged files := by
  have type := archives.own own
  rcases bind_eq_ok.mp ran with ⟨rules, checked, is⟩
  obtain rfl := pure_eq_ok.mp is
  have keptOwn : ∀ inode, node.inode? = some inode → keptName options tree.nodes inode = some path := by
    intro inode has
    rcases keptName_of_keeps split has keeps with ⟨first, kept, ⟨there, -⟩ | ⟨rfl, -⟩⟩
    · have earlier : ∀ entry ∈ before, entry.2.inode? ≠ some inode := by
        intro entry listed same
        have isFirst := own inode has
        rw [firstName, split, find?_append] at isFirst
        cases found : before.find? fun entry => entry.2.inode? = some inode with
        | none => exact absurd same (by simpa using find?_eq_none.mp found entry listed)
        | some entry' =>
          rw [found] at isFirst
          exact not_mem_before split _ (mem_of_find?_eq_some found) (Option.some.inj isFirst)
      exact absurd has (earlier _ there)
    · exact kept
  have archived : node.type = archivedAs options tree.nodes (path, node) := by
    cases node with
    | file inode content => simp [archivedAs, SourceNode.type, keptOwn inode rfl]
    | directory | symlink _ _ | special _ _ => rfl
  rw [type, archived] at checked
  have plain : archivedAs options tree.nodes (path, node) ≠ .link := by
    rw [← archived]
    cases node <;> rintro ⟨⟩
  refine packed.advances_add root filled apart split keeps none _ ⟨?_, ?_, ?_, ?_⟩
    (ArchiveRules.check_eq_ok.mp checked) safe ?_ ?_ rfl rfl rfl (packed.materialized_own split own) ?_
  · show dataName _ _ = _
    rw [type, archived]
    simp
  · rw [← archived]
    exact type
  · intro link
    exact absurd link plain
  · exact fun _ => rfl
  · intro inode target is
    exact own inode (by rw [is]; rfl)
  · rw [← archived]
    cases node with
    | directory => rfl
    | file inode content =>
      show stagedAs options tree.nodes staging (.file inode content) = .file (staging :: path) file.body
      rw [stagedAs, keptOwn inode rfl, archives.content inode content rfl (own inode rfl)]
      rfl
    | symlink inode target =>
      show stagedAs options tree.nodes staging (.symlink inode target) = .symlink (file.header.linkname.getD [])
      rw [archives.target inode target rfl (own inode rfl)]
      rfl
    | special inode name =>
      rw [TarBackupOptions.keeps, SourceNode.isSpecial, Bool.not_true, Bool.and_false] at keeps
      cases keeps
  · intro p inode content listed _
    obtain ⟨rfl, rfl⟩ := Prod.mk.inj (mem_singleton.mp listed)
    refine ⟨p, keptOwn inode rfl, _, mem_cons_self, ?_, ?_⟩
    · show dataName _ _ = _
      rw [type]
      rfl
    · rw [if_pos rfl]
      exact ⟨type, archives.content inode content rfl (own inode rfl)⟩

/-- A link to what was left out, which holds the file instead. -/
theorem step_materialized (reads : options.Reads tree) (root : mount.get [] = some .folder)
    (filled : staging ≠ []) (apart : '/' ∉ staging)
    (split : tree.nodes = before ++ (path, node) :: after)
    (keeps : options.outside path node.isDirectory = false)
    (safe : requireSafePath (Path.joined '/' path) "restore.validate" = .ok ()) (is : node.inode? = some inode)
    (isFirst : firstName tree.nodes inode = some first) (other : first ≠ path)
    (found : (if state.rules.isFile (Path.joined '/' first) then some (Path.joined '/' first)
      else state.materialized.get (Path.joined '/' first)) = none)
    (ran : (do
      let held ← readOneFile options (Path.joined '/' path)
      let state ← state.add (Path.joined '/' path) (some .file) none ⟨{ file.header with
        linkname := none
        name := dataName (Path.joined '/' path) false
        pax := entryPax file.header.pax
        size := held.header.size
        type := some .file }, held.body⟩
      return { state with
        materialized := state.materialized.set (Path.joined '/' first) (Path.joined '/' path) }) =
      .ok state') :
    Advances options tree staging mount before (path, node) state state' staged files := by
  have listed : (path, node) ∈ tree.nodes := by
    rw [split]
    exact mem_append_right _ mem_cons_self
  rcases bind_eq_ok.mp ran with ⟨held, opened, ran⟩
  rcases bind_eq_ok.mp ran with ⟨between, added, done⟩
  obtain rfl := pure_eq_ok.mp done
  rcases bind_eq_ok.mp added with ⟨rules, checked, done'⟩
  obtain rfl := pure_eq_ok.mp done'
  have notFolder : node.isDirectory = false := by
    cases node with
    | directory => cases is
    | file _ _ | symlink _ _ | special _ _ => rfl
  -- Docker has one file to give of the path, so the path is a file's.
  rcases readOneFile_eq_ok reads listed notFolder opened with ⟨inode', rfl⟩
  obtain rfl : inode' = inode := Option.some.inj is
  have kept : options.keeps (path, (.file inode' held.body : SourceNode ι α)) = true := by
    rw [TarBackupOptions.keeps, keeps]
    rfl
  have isKept := packed.linked_eq_none split rfl isFirst kept found
  have archived : archivedAs options tree.nodes (path, .file inode' held.body) = .file := by
    simp [archivedAs, isKept]
  refine packed.advances_add root filled apart split kept none rules ⟨?_, ?_, ?_, ?_⟩ ?_ safe ?_ ?_ rfl rfl rfl ?_ ?_
  · rw [archived]
    rfl
  · rw [archived]
  · rw [archived]
    rintro ⟨⟩
  · exact fun _ => rfl
  · rw [archived]
    exact ArchiveRules.check_eq_ok.mp checked
  · intro inode target same
    cases same
  · rw [archived]
    show stagedAs options tree.nodes staging (.file inode' held.body) = .file (staging :: path) held.body
    rw [stagedAs, isKept]
    rfl
  · intro linked name
    show (state.materialized.set (Path.joined '/' first) (Path.joined '/' path)).get linked = some name ↔ _
    rw [OrderedMap.get_set, materialized_append]
    split
    · rename_i here
      subst here
      rw [Option.some.injEq]
      constructor
      · rintro rfl
        exact .inr ⟨inode', first, isFirst, isKept, other, rfl, rfl⟩
      rintro (earlier | ⟨_, _, _, _, _, _, same⟩)
      · have there := (packed.materialized _ _).mpr earlier
        split at found
        · cases found
        · rw [there] at found
          cases found
      · exact same.symm
    · rename_i elsewhere
      rw [packed.materialized]
      refine ⟨.inl, fun either => either.resolve_right ?_⟩
      rintro ⟨inode, first', isFirst', isKept', -, same, -⟩
      rcases keptName_mem isKept' with ⟨keptNode, keptThere, keptIs, -⟩
      have one := eq_of_path keptThere listed rfl
      obtain rfl : keptNode = _ := (Prod.mk.inj one).2
      obtain rfl : inode' = inode := Option.some.inj keptIs
      rw [isFirst] at isFirst'
      exact elsewhere (by rw [same, Option.some.inj isFirst'])
  · intro p inode content there _
    obtain ⟨rfl, same⟩ := Prod.mk.inj (mem_singleton.mp there)
    cases same
    exact ⟨p, isKept, _, mem_cons_self, rfl, by rw [if_pos rfl]; exact ⟨rfl, rfl⟩⟩

/-- A link to what is in the archive. -/
theorem step_linked (root : mount.get [] = some .folder) (filled : staging ≠ [])
    (apart : '/' ∉ staging) (split : tree.nodes = before ++ (path, node) :: after)
    (keeps : options.outside path node.isDirectory = false)
    (safe : requireSafePath (Path.joined '/' path) "restore.validate" = .ok ()) (is : node.inode? = some inode)
    (isFirst : firstName tree.nodes inode = some first)
    {target : List Char}
    (found : (if state.rules.isFile (Path.joined '/' first) then some (Path.joined '/' first)
      else state.materialized.get (Path.joined '/' first)) = some target)
    (type : file.header.type = some .link)
    (ran : state.add (Path.joined '/' path) (some .link) (some target) ⟨{ file.header with
      linkname := some (dataName target false)
      name := dataName (Path.joined '/' path) false
      pax := entryPax file.header.pax }, file.body⟩ = .ok state') :
    Advances options tree staging mount before (path, node) state state' staged files := by
  have listed : (path, node) ∈ tree.nodes := by
    rw [split]
    exact mem_append_right _ mem_cons_self
  rcases bind_eq_ok.mp ran with ⟨rules, checked, done⟩
  obtain rfl := pure_eq_ok.mp done
  rcases packed.linked_eq_some split is isFirst found with
    ⟨keptAt, content, isKept, there, keeps', rfl, rfl⟩
  have kept : options.keeps (path, (.file inode content : SourceNode ι α)) = true := by
    rw [TarBackupOptions.keeps, keeps]
    rfl
  have elsewhere : keptAt ≠ path := not_mem_before split _ there
  have archived : archivedAs options tree.nodes (path, .file inode content) = .link := by
    simp [archivedAs, isKept, elsewhere]
  have there' : (keptAt, .file inode content) ∈ tree.nodes := by
    rw [split]
    exact mem_append_left _ there
  have seen := (packed.seen (Path.joined '/' keptAt) _).mpr ⟨_, there, keeps', rfl, rfl⟩
  have notRoot : keptAt ≠ [] := by
    rintro rfl
    have atRoot := mem_of_mem_head? tree.root
    cases (Prod.mk.inj (eq_of_path there' atRoot rfl)).2
  refine packed.advances_add root filled apart split kept (some keptAt) rules ⟨?_, ?_, ?_, ?_⟩
    ?_ safe ?_ ?_ rfl rfl rfl ?_ ?_
  · rw [archived]
    rfl
  · rw [archived]
    exact type
  · exact fun _ => ⟨keptAt, rfl, notRoot, tree.named _ there', packed.safe _ _ seen, rfl⟩
  · rw [archived]
    exact fun plain => absurd rfl plain
  · rw [archived]
    exact ArchiveRules.check_eq_ok.mp checked
  · intro inode target same
    cases same
  · rw [archived]
    refine ⟨staging :: keptAt, content, by rw [stagedAs, isKept]; rfl, ?_⟩
    intro names same
    cases same
    rcases append_of_mem there with ⟨front, rest, rfl⟩
    rw [append_assoc, cons_append] at split
    refine ⟨packed.lies root split (fun entry listed => mem_append_left _ listed) keeps', ?_⟩
    rw [packed.kept _ there keeps', stagedAs, isKept]
    rfl
  · intro linked name
    rw [packed.materialized, materialized_append]
    refine ⟨.inl, fun either => either.resolve_right ?_⟩
    rintro ⟨inode', first', -, isKept', -⟩
    rcases keptName_mem isKept' with ⟨keptNode, keptThere, keptIs, -⟩
    have one := eq_of_path keptThere listed rfl
    obtain rfl : keptNode = _ := (Prod.mk.inj one).2
    cases keptIs
    rw [isKept] at isKept'
    exact elsewhere (Option.some.inj isKept')
  · intro p inode' content' listed' _
    obtain ⟨rfl, same⟩ := Prod.mk.inj (mem_singleton.mp listed')
    cases same
    refine ⟨keptAt, isKept, _, mem_cons_self, rfl, ?_⟩
    rw [if_neg elsewhere]
    exact ⟨type, rfl⟩

theorem step_link (reads : options.Reads tree) (root : mount.get [] = some .folder)
    (filled : staging ≠ []) (apart : '/' ∉ staging)
    (split : tree.nodes = before ++ (path, node) :: after)
    (keeps : options.outside path node.isDirectory = false)
    (safe : requireSafePath (Path.joined '/' path) "restore.validate" = .ok ())
    (archives : tree.Archives (path, node) file) (is : node.inode? = some inode)
    (isFirst : firstName tree.nodes inode = some first) (other : first ≠ path)
    (ran : repackLink options state (Path.joined '/' path) file = .ok state') :
    Advances options tree staging mount before (path, node) state state' staged files := by
  rcases archives.link inode first is isFirst other with ⟨type, linkname⟩
  rcases firstName_mem isFirst with ⟨firstNode, firstThere, -⟩
  rcases bind_eq_ok.mp ran with ⟨linked, read, ran⟩
  rw [linkname, Option.getD_some] at read
  obtain ⟨rfl, -⟩ := sourcePath_eq_ok (tree.named _ firstThere) read
  cases found : (if state.rules.isFile (Path.joined '/' first) then some (Path.joined '/' first)
      else state.materialized.get (Path.joined '/' first)) with
  | none =>
    rw [found] at ran
    exact packed.step_materialized reads root filled apart split keeps safe is isFirst other found ran
  | some target =>
    rw [found] at ran
    exact packed.step_linked root filled apart split keeps safe is isFirst found type ran

omit packed in
theorem own_or_link (split : tree.nodes = before ++ (path, node) :: after) :
    (∀ inode, node.inode? = some inode → firstName tree.nodes inode = some path) ∨
      ∃ inode first, node.inode? = some inode ∧ firstName tree.nodes inode = some first ∧ first ≠ path := by
  cases has : node.inode? with
  | none => exact .inl nofun
  | some inode =>
    rcases firstName_of_inode split has with ⟨first, isFirst, -⟩
    by_cases same : first = path
    · refine .inl fun other is => ?_
      rw [← Option.some.inj is, isFirst, same]
    · exact .inr ⟨inode, first, rfl, isFirst, same⟩

omit packed in
theorem isDirectory_eq (archives : tree.Archives (path, node) file)
    (split : tree.nodes = before ++ (path, node) :: after) :
    decide (file.header.type = some .directory) = node.isDirectory := by
  rcases own_or_link split with own | ⟨inode, first, is, isFirst, other⟩
  · rw [archives.own own]
    cases node <;> rfl
  · rw [(archives.link inode first is isFirst other).1]
    cases node with
    | directory => cases is
    | file _ _ | symlink _ _ | special _ _ => rfl

theorem step (reads : options.Reads tree) (root : mount.get [] = some .folder)
    (filled : staging ≠ []) (apart : '/' ∉ staging)
    (split : tree.nodes = before ++ (path, node) :: after) {file : TarFile α}
    (archives : tree.Archives (path, node) file) {state' : Repacking α}
    (ran : repackEntry options state file = .ok state') :
    Advances options tree staging mount before (path, node) state state' staged files := by
  rcases bind_eq_ok.mp ran with ⟨text, read, counted⟩
  rw [archives.name] at read
  obtain ⟨rfl, safe⟩ := sourcePath_eq_ok (named_of_split split) read
  split at counted
  · cases counted
  have packed' : Packed options tree staging mount before
      { state with entries := state.entries + 1 } staged files := packed.of_same rfl rfl rfl
  show Advances options tree staging mount before (path, node)
    { state with entries := state.entries + 1 } state' staged files
  unfold repackPath at counted
  simp only [isDirectory_eq archives split, packed'.skipped split] at counted
  split at counted
  · rename_i out
    have keeps : options.keeps (path, node) = false := by
      rw [TarBackupOptions.keeps, out, Bool.not_true, Bool.false_and]
    cases counted
    refine packed'.advances_skip split keeps ?_ ?_ ?_ ?_
    · split <;> rfl
    · split <;> rfl
    · rw [out, Bool.and_true]
      split <;> rfl
    · split <;> rfl
  rename_i kept
  rw [Bool.not_eq_true] at kept
  rcases own_or_link split with own | ⟨inode, first, is, isFirst, other⟩
  · have type := archives.own own
    split at counted
    · rename_i special
      cases counted
      have isSpecial : node.isSpecial = true := by
        rw [type] at special
        cases node with
        | special _ _ => rfl
        | directory | file _ _ | symlink _ _ => cases special
      have keeps : options.keeps (path, node) = false := by
        rw [TarBackupOptions.keeps, isSpecial, Bool.not_true, Bool.and_false]
      refine packed'.advances_skip split keeps rfl rfl (if_neg ?_).symm rfl
      rw [kept, Bool.and_false]
      exact Bool.false_ne_true
    rename_i archived
    rw [if_neg, ← isDirectory_eq archives split] at counted
    · refine packed'.step_own root filled apart split ?_ safe archives own counted
      rw [TarBackupOptions.keeps, kept]
      cases node with
      | special _ _ =>
        rw [type] at archived
        exact absurd rfl archived
      | directory | file _ _ | symlink _ _ => rfl
    · rw [type]
      cases node <;> rintro ⟨⟩
  · have type := (archives.link inode first is isFirst other).1
    rw [if_neg (by rw [type]; exact Bool.false_ne_true), if_pos type] at counted
    exact packed'.step_link reads root filled apart split kept safe archives is isFirst other counted

end Packed

theorem Packed.run (reads : options.Reads tree) (root : mount.get [] = some .folder)
    (filled : staging ≠ []) (apart : '/' ∉ staging) {rest : SourceNodes ι α}
    {archive : List (TarFile α)} (archives : Forall₂ tree.Archives rest archive)
    (packed : Packed options tree staging mount before state staged files)
    (split : tree.nodes = before ++ rest) {state' : Repacking α}
    (ran : archive.foldlM (repackEntry options) state = .ok state') :
    ∃ added staged' puts files', state'.packed = state.packed ++ added ∧
      added.foldlM (stageEntry staging) staged = .ok staged' ∧ staged'.put = staged.put ++ puts ∧
      puts.foldlM extractEntry files = some files' ∧
      Packed options tree staging mount tree.nodes state' staged' files' ∧
      PacksSoFar options tree.nodes rest added := by
  induction archives generalizing before state staged files with
  | nil =>
    obtain rfl := pure_eq_ok.mp ran
    rw [append_nil] at split
    rw [← split] at packed
    refine ⟨[], staged, [], files, (append_nil _).symm, rfl, (append_nil _).symm, rfl, packed, ?_⟩
    intro path inode content listed
    cases listed
  | @cons entry file rest archive archives _ ih =>
    rw [foldlM_cons] at ran
    rcases bind_eq_ok.mp ran with ⟨between, stepped, ran⟩
    rcases packed.step reads root filled apart split archives stepped with
      ⟨added, staged', puts, files', grown, staging', put, extracted, packed', packs⟩
    rw [append_cons] at split
    rcases ih packed' split ran with
      ⟨added', staged'', puts', files'', grown', staging'', put', extracted', packed'', packs'⟩
    refine ⟨added ++ added', staged'', puts ++ puts', files'', ?_, ?_, ?_, ?_, packed'', ?_⟩
    · rw [grown', grown, append_assoc]
    · rw [foldlM_append, staging']
      exact staging''
    · rw [put', put, append_assoc]
    · rw [foldlM_append, extracted]
      exact extracted'
    intro path inode content listed keeps
    rcases mem_cons.mp listed with here | later
    · rcases packs path inode content (mem_singleton.mpr here) keeps with
        ⟨first, isKept, found, there, rest⟩
      exact ⟨first, isKept, found, mem_append_left _ there, rest⟩
    · rcases packs' path inode content later keeps with ⟨first, isKept, found, there, rest⟩
      exact ⟨first, isKept, found, mem_append_right _ there, rest⟩

theorem Packed.start (reserved : Reserved mount staging) (manifest : TarFile α) :
    Packed options tree staging mount [] { packed := [manifest] } {} mount where
  excluded leading := ⟨nofun, fun found => by
    rcases found with ⟨path, listed, -⟩
    exact nomatch listed⟩
  seen path type := ⟨nofun, fun found => by
    rcases found with ⟨entry, listed, -⟩
    exact nomatch listed⟩
  safe path type found := nomatch found
  materialized linked name := ⟨nofun, fun found => by
    rcases found with ⟨inode, first, kept, -, -, -, listed, -⟩
    exact nomatch listed⟩
  own path inode target listed := nomatch listed
  rules := rfl
  kept entry listed := nomatch listed
  only path some' node found := by
    rw [reserved.empty path some'] at found
    cases found
  others _ _ := rfl
  reserved := reserved.folder

end step

section done

variable {tree : SourceTree ι α} {options : TarBackupOptions α} {staging : List Char}
  {mount files : StagedTree α} {state : Repacking α} {staged : Staging α}

theorem Packed.restores (packed : Packed options tree staging mount tree.nodes state staged files) :
    TreeRestores options tree staging mount files where
  folder path listed keeps := packed.kept _ listed keeps
  file path inode content listed keeps := by
    rcases append_of_mem listed with ⟨before, after, split⟩
    rcases keptName_of_keeps split rfl keeps with ⟨first, isKept, -⟩
    refine ⟨first, isKept, ?_⟩
    rw [packed.kept _ listed keeps, stagedAs, isKept]
    rfl
  symlink path inode target listed keeps := packed.kept _ listed keeps
  only path node found := by
    by_cases empty : path = []
    · subst empty
      refine ⟨([], .directory), mem_of_mem_head? tree.root, rfl, ?_⟩
      rfl
    · exact packed.only path empty node found
  others := packed.others

theorem TreeRestores.keepsLinks (restores : TreeRestores options tree staging mount files) :
    KeepsLinks options tree staging files := by
  intro path path' inode inode' content content' listed keeps listed' keeps'
  rcases restores.file path inode content listed keeps with ⟨first, isKept, held⟩
  rcases restores.file path' inode' content' listed' keeps' with ⟨first', isKept', held'⟩
  constructor
  · rintro ⟨identity, same, same'⟩
    rw [held] at same
    rw [held'] at same'
    cases same
    obtain ⟨both, -⟩ := FileNode.file.inj (Option.some.inj same')
    obtain rfl : first' = first := (List.cons.inj both).2
    rcases keptName_mem isKept with ⟨node, there, is, -⟩
    rcases keptName_mem isKept' with ⟨node', there', is', -⟩
    have one := (Prod.mk.inj (eq_of_path there there' rfl)).2
    rw [one, is'] at is
    exact (Option.some.inj is).symm
  · rintro rfl
    cases isKept.symm.trans isKept'
    exact ⟨staging :: first, held, held'⟩

/-- A backup that finishes is one that a restore stages: the archive has each kept file once, and what
    is staged is the source but for what is left out, its files' names still one file's. -/
theorem tar_backup_restores (options : TarBackupOptions α) (tree : SourceTree ι α)
    (reads : options.Reads tree) (archive : List (TarFile α)) (warnings : List (List Char))
    (made : createTarBackup options = .ok (archive, warnings)) (taskId : String)
    (apart : '/' ∉ taskId.toList) (mount : StagedTree α)
    (reserved : Reserved mount (tarRestoreStagingName taskId).toList) :
    ∃ root puts staged, stage (tarRestoreStagingName taskId).toList archive = .ok (root, puts) ∧
      puts.foldlM extractEntry mount = some staged ∧
      TreeRestores options tree (tarRestoreStagingName taskId).toList mount staged ∧
      KeepsLinks options tree (tarRestoreStagingName taskId).toList staged ∧
      PacksLinks options tree archive := by
  have name : (tarRestoreStagingName taskId).toList = tarStagingPrefix ++ taskId.toList := by
    rw [tarRestoreStagingName, String.toList_append]
    rfl
  generalize (tarRestoreStagingName taskId).toList = staging at name reserved ⊢
  have filled : staging ≠ [] := by
    rw [name]
    exact append_ne_nil_of_left_ne_nil (by decide) _
  have whole : '/' ∉ staging := by
    rw [name, mem_append, not_or]
    exact ⟨by decide, apart⟩
  rcases bind_eq_ok.mp made with ⟨source, given, made⟩
  rcases bind_eq_ok.mp made with ⟨state, ran, made⟩
  rcases bind_eq_ok.mp made with ⟨_, finished, made⟩
  cases pure_eq_ok.mp made
  rcases Packed.run reads reserved.root filled whole (reads.whole source given)
    (Packed.start reserved _) rfl ran with
    ⟨added, staged, puts, files, grown, staged', put, extracted, packed, packs⟩
  refine ⟨staged.root, puts, files, ?_, extracted, packed.restores, packed.restores.keepsLinks, ?_⟩
  · rw [grown]
    refine bind_eq_ok.mpr ⟨added, rfl, bind_eq_ok.mpr ⟨staged, staged', bind_eq_ok.mpr ⟨(), ?_, ?_⟩⟩⟩
    · unfold ArchiveRules.finish at finished ⊢
      rw [packed.rules]
      split at finished
      · rename_i there
        exact if_pos there
      · cases finished
    · rw [put]
      rfl
  · intro path inode content listed keeps
    rcases packs path inode content listed keeps with ⟨first, isKept, entry, there, rest⟩
    refine ⟨first, isKept, entry, ?_, rest⟩
    rw [grown]
    exact mem_append_right _ there

end done

/-! ## An engine that archives a tree -/

variable (blank : α)

/-- An entry of a tree's archive. -/
def SourceTree.archived (tree : SourceTree ι α) (entry : List (List Char) × SourceNode ι α) :
    TarFile α :=
  let name := nameUnder tarSourcePrefix entry.1 entry.2.isDirectory
  match entry.2.inode?.bind fun inode => (firstName tree.nodes inode).filter (· ≠ entry.1) with
  | some first =>
      let linkname := some (nameUnder tarSourcePrefix first false)
      ⟨{ name, type := some .link, linkname }, blank⟩
  | none =>
      match entry.2 with
      | .file _ content => ⟨{ name, type := some .file }, content⟩
      | .symlink _ target => ⟨{ name, type := some .symlink, linkname := some target }, blank⟩
      | node => ⟨{ name, type := some node.type }, blank⟩

/-- What it gives of a path. -/
def SourceTree.containerArchive (tree : SourceTree ι α) (path : List Char) :
    Except TarError (List (TarFile α)) :=
  if path = tarMount then .ok (tree.nodes.map (tree.archived blank))
  else
    match tree.nodes.find? fun entry => tarMount ++ '/' :: Path.joined '/' entry.1 = path with
    | some (names, .file _ content) =>
        .ok [⟨{ name := names.getLastD [], type := some .file }, content⟩]
    | _ => .error ⟨"not_found", "archive", "No such file"⟩

theorem SourceTree.archives_archived (tree : SourceTree ι α)
    (entry : List (List Char) × SourceNode ι α) (listed : entry ∈ tree.nodes) :
    tree.Archives entry (tree.archived blank entry) := by
  rcases entry with ⟨path, node⟩
  rcases append_of_mem listed with ⟨before, after, split⟩
  have single : ∀ inode inode', node.inode? = some inode → node.inode? = some inode' → inode = inode' :=
    fun inode inode' is is' => Option.some.inj (is.symm.trans is')
  rcases Packed.own_or_link split with own | ⟨inode, first, is, isFirst, other⟩
  · have none' : (node.inode?.bind fun inode => (firstName tree.nodes inode).filter (· ≠ path)) = none := by
      cases has : node.inode? with
      | none => rfl
      | some inode => simp [own inode has]
    unfold SourceTree.archived
    simp only [none']
    refine ⟨?_, ?_, ?_, ?_, ?_⟩
    · cases node <;> rfl
    · cases node <;> exact fun _ => rfl
    · rintro inode content rfl -
      rfl
    · rintro inode target rfl -
      rfl
    · intro inode first is isFirst other
      rw [own inode is] at isFirst
      exact absurd (Option.some.inj isFirst).symm other
  · have some' : (node.inode?.bind fun inode => (firstName tree.nodes inode).filter (· ≠ path)) = some first := by
      rw [is, Option.bind_some, isFirst, Option.filter_some, if_pos (by simpa using other)]
    have notOwn : firstName tree.nodes inode ≠ some path := by
      rw [isFirst]
      exact fun same => other (Option.some.inj same)
    unfold SourceTree.archived
    simp only [some']
    refine ⟨rfl, fun own => absurd (own inode is) notOwn, ?_, ?_, ?_⟩
    · rintro inode' content rfl own
      obtain rfl := single inode inode' is rfl
      exact absurd own notOwn
    · rintro inode' target rfl own
      obtain rfl := single inode inode' is rfl
      exact absurd own notOwn
    · intro inode' first' is' isFirst' _
      obtain rfl := single inode inode' is is'
      cases isFirst.symm.trans isFirst'
      exact ⟨rfl, rfl⟩

theorem SourceTree.reads_containerArchive (tree : SourceTree ι α)
    {options : TarBackupOptions α} (engine : options.containerArchive = tree.containerArchive blank) :
    options.Reads tree where
  whole archive given := by
    rw [engine, SourceTree.containerArchive, if_pos rfl] at given
    cases given
    rw [forall₂_map_right_iff, forall₂_same]
    exact tree.archives_archived blank
  one entry listed archive notFolder given file there isFile := by
    rw [engine, SourceTree.containerArchive] at given
    split at given
    · rename_i same
      simp [tarMount] at same
    split at given
    · rename_i names inode content found
      have same : (names, SourceNode.file inode content) = entry := by
        have at' := find?_some found
        rw [decide_eq_true_eq] at at'
        have joined := append_cancel_left at'
        exact eq_of_path (mem_of_find?_eq_some found) listed
          ((tree.named _ (mem_of_find?_eq_some found)).joined_injective (tree.named _ listed) (List.cons.inj joined).2)
      cases given
      rw [← same, mem_singleton.mp there]
      exact ⟨inode, rfl⟩
    · cases given

/-- A file whose first name is left out, with two more, and a symlink. -/
def linkedNodes : SourceNodes Nat Nat :=
  [([], .directory), (["cache".toList], .directory), (["cache".toList, "blob".toList], .file 1 7),
    (["keep".toList], .file 1 7), (["keep-too".toList], .file 1 7),
    (["latest".toList], .symlink 2 "/etc".toList)]

theorem linkedNodes_linked : ∀ entry ∈ linkedNodes, ∀ other ∈ linkedNodes,
    entry.2.inode?.isSome → entry.2.inode? = other.2.inode? → entry.2 = other.2 := by
  decide

def linkedSource : SourceTree Nat Nat where
  nodes := linkedNodes
  root := rfl
  distinct := by decide
  nested := by decide
  named := by
    simp only [Path.Named]
    decide
  linked := by
    intro entry listed other listed' inode is is'
    exact linkedNodes_linked entry listed other listed' (by rw [is]; rfl) (is.trans is'.symm)

/-- Its backup, without the folder. -/
def linkedBackup : TarBackupOptions Nat where
  containerArchive := linkedSource.containerArchive 0
  minimatch candidate pattern _ := candidate = pattern
  exclude := ["cache/".toList]
  manifest := 9

def reservedMount : StagedTree Nat := (OrderedMap.empty.set [] .folder).set [".kiln-restore-1".toList] .folder

theorem reservedMount_reserved : Reserved reservedMount (tarRestoreStagingName "1").toList where
  root := by decide
  folder := by decide
  empty path some' := by
    unfold reservedMount
    rw [OrderedMap.get_set, if_neg, OrderedMap.get_set, if_neg (by simp)]
    · rfl
    · intro same
      exact some' (List.cons.inj same).2.symm

theorem tar_backup_restores_linked : ∃ archive warnings,
    createTarBackup linkedBackup = .ok (archive, warnings) ∧
      ∃ root puts staged, stage (tarRestoreStagingName "1").toList archive = .ok (root, puts) ∧
        puts.foldlM extractEntry reservedMount = some staged ∧
        TreeRestores linkedBackup linkedSource (tarRestoreStagingName "1").toList reservedMount staged ∧
        KeepsLinks linkedBackup linkedSource (tarRestoreStagingName "1").toList staged ∧
        PacksLinks linkedBackup linkedSource archive :=
  ⟨_, _, rfl, tar_backup_restores linkedBackup linkedSource
    (linkedSource.reads_containerArchive 0 rfl) _ _ rfl "1" (by decide) reservedMount
    reservedMount_reserved⟩

end Kiln.Relay
