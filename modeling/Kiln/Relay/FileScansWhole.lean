import Kiln.Relay.FileScans

/-!
# Every entry on one page

What a scan still has to give is what it has on the page it reads and what it hasn't read yet. A
turn gives some of it or keeps it, unless it fails: then what is on the page is lost. Where
nothing is lost, the pages of a scan are what there was to give, and there are only so many turns.
-/

namespace Kiln.Relay
open Kiln.Lib List Function Option

/-! ## What there is to give -/

theorem Dirent.sizeOf_folder (entry : Dirent) : sizeOf entry.folder < sizeOf entry := by
  rcases entry with ⟨name, kind, metadata, links, folder⟩
  simp only [Dirent.folder, mk.sizeOf_spec]
  omega

theorem sizeOf_getD (folder : Option (List Dirent)) : sizeOf (folder.getD []) ≤ sizeOf folder := by
  cases folder with
  | none => simp
  | some entries => simp

/-- The supported entries of a folder that can be read. -/
def readable (directory : String) (entries : List Dirent) : List RelayFileEntry :=
  (entries.filter supportedDirectoryEntry).filterMap (relayFileEntry directory)

theorem readable_cons (directory : String) (entry : Dirent) (rest : List Dirent) : readable directory (entry :: rest) =
      (if supportedDirectoryEntry entry then (relayFileEntry directory entry).toList else []) ++
        readable directory rest := by
  by_cases supported : supportedDirectoryEntry entry = true
  · cases read : relayFileEntry directory entry <;> simp [readable, supported, read]
  · simp [readable, supported]

/-- The entry itself, where it can be read and is searched for. -/
def foundEntry (texts : FileTexts) (queryLower directory : String) (entry : Dirent) : List RelayFileEntry :=
  if SearchScan.matches_ texts queryLower (fileEntryPath directory entry) then
    (relayFileEntry directory entry).toList
  else []

/-- The matching entries of a folder that can be read, and those of the folders in it that open. -/
def below (texts : FileTexts) (queryLower directory : String) : List Dirent → List RelayFileEntry
  | [] => []
  | entry :: rest =>
      (if supportedDirectoryEntry entry then foundEntry texts queryLower directory entry else []) ++
        (if entry.kind = .directory then
          below texts queryLower (fileEntryPath directory entry) (entry.folder.getD [])
        else []) ++ below texts queryLower directory rest
termination_by entries => sizeOf entries
decreasing_by
  · have := entry.sizeOf_folder
    have := sizeOf_getD entry.folder
    simp only [List.cons.sizeOf_spec]
    omega
  · simp only [List.cons.sizeOf_spec]
    omega

def DirectoryScan.unread (scan : DirectoryScan) : List Dirent := scan.pending.toList ++ scan.handle

/-- What a listing has on the page it reads. -/
def DirectoryScan.taken (scan : DirectoryScan) : List RelayFileEntry :=
  scan.entries.filterMap (relayFileEntry scan.directory)

/-- What a listing still has to give. -/
def DirectoryScan.remaining (scan : DirectoryScan) : List RelayFileEntry :=
  scan.taken ++ readable scan.directory scan.unread

noncomputable def DirectoryScan.work (scan : DirectoryScan) : Nat :=
  2 * sizeOf scan.unread + scan.entries.length

def SearchFolder.unread (folder : SearchFolder) : List Dirent := folder.pending.toList ++ folder.handle

@[simp] theorem SearchFolder.unread_opened (directory : String) (handle : List Dirent) :
    (⟨directory, handle, none⟩ : SearchFolder).unread = handle := rfl

/-- What a search hasn't read yet, of the folder it is in and those it has to open. -/
def unreadBelow (texts : FileTexts) (queryLower : String) (active : Option SearchFolder) (queue : List SearchDirectory) :
    List RelayFileEntry :=
  (active.elim [] fun folder => below texts queryLower folder.directory folder.unread) ++
    queue.flatMap fun next => below texts queryLower next.directory (next.folder.getD [])

/-- What a search still has to give. -/
def SearchScan.remaining (texts : FileTexts) (scan : SearchScan) : List RelayFileEntry :=
  scan.entries ++ unreadBelow texts scan.queryLower scan.active scan.queue

noncomputable def unreadSize (active : Option SearchFolder) (queue : List SearchDirectory) : Nat :=
  (active.elim 0 fun folder => sizeOf folder.unread) + (queue.map fun next => sizeOf next.folder).sum

noncomputable def SearchScan.work (scan : SearchScan) : Nat :=
  2 * unreadSize scan.active scan.queue + scan.visits + scan.entries.length

namespace FileScan

def remaining (texts : FileTexts) : FileScan → List RelayFileEntry
  | directory scan => scan.remaining
  | search scan => scan.remaining texts

/-- The entries on the page that is read, which a failure loses. -/
def taken : FileScan → List RelayFileEntry
  | directory scan => scan.taken
  | search scan => scan.entries

/-- A bound on the turns a scan can still take. -/
noncomputable def work : FileScan → Nat
  | directory scan => scan.work
  | search scan => scan.work

end FileScan

/-- What a turn makes of what there is to give: it is kept, given, or lost with the page. -/
def ScanTurn.Keeps {σ : Type} (remaining taken : σ → List RelayFileEntry) (work : σ → Nat) (scan : σ) :
    ScanTurn σ → Prop
  | goes next => (remaining next).Perm (remaining scan) ∧ work next < work scan
  | page entries complete next => (entries ++ remaining next).Perm (remaining scan) ∧
      (if complete then remaining next = [] else work next < work scan)
  | fails next => (taken scan ++ remaining next).Perm (remaining scan) ∧ work next < work scan

theorem ScanTurn.Keeps.congr {σ : Type} {remaining taken : σ → List RelayFileEntry} {work : σ → Nat}
    {scan scan' : σ} {turn : ScanTurn σ} (keeps : turn.Keeps remaining taken work scan')
    (same : remaining scan' = remaining scan) (page : taken scan' = taken scan) (size : work scan' = work scan) :
    turn.Keeps remaining taken work scan := by
  cases turn <;> simpa only [Keeps, same, page, size] using keeps

/-! ## A turn of a listing -/

namespace DirectoryScan

theorem filterMap_of_mapM {read : Dirent → Option RelayFileEntry} {entries : List Dirent}
    {resolved : List RelayFileEntry} (all : entries.mapM read = some resolved) :
    entries.filterMap read = resolved := by
  induction entries generalizing resolved with
  | nil => exact Option.some.inj all
  | cons entry rest ih =>
    rw [mapM_cons] at all
    obtain ⟨first, found, all⟩ := bind_eq_some_iff.mp all
    obtain ⟨later, others, all⟩ := bind_eq_some_iff.mp all
    cases all
    rw [filterMap_cons, found, ih others]

theorem finish_keeps (scan : DirectoryScan) (complete : Bool) (last : complete = true → scan.unread = [])
    (some_ : complete = false → scan.entries ≠ []) : (scan.finish complete).Keeps remaining taken work scan := by
  have fewer : scan.entries ≠ [] →
      ({ scan with entries := [], estimatedBytes := 0 } : DirectoryScan).work < scan.work := by
    intro some_
    have := length_pos_iff.mpr some_
    simp only [work, unread, length_nil]
    omega
  unfold finish
  dsimp only
  split
  · rename_i resolved all
    refine ⟨by rw [← filterMap_of_mapM all]; rfl, ?_⟩
    cases complete with
    | true =>
      show readable scan.directory scan.unread = []
      rw [last rfl]
      rfl
    | false => exact fewer (some_ rfl)
  · rename_i failed
    refine ⟨.refl _, fewer fun none_ => ?_⟩
    rw [none_] at failed
    cases failed

/-- A turn of a listing gives or keeps each entry, or loses those on its page. -/
theorem turn_keeps (texts : FileTexts) (scan : DirectoryScan) : (scan.turn texts).Keeps remaining taken work scan := by
  unfold turn
  split
  · rename_i full
    refine finish_keeps scan false (by rintro ⟨⟩) fun _ none_ => ?_
    rw [none_] at full
    cases full
  split
  · rename_i nothing
    have nothing : scan.unread = [] := nothing
    have ended : ({ scan with pending := none } : DirectoryScan).unread = scan.unread :=
      (append_eq_nil_iff.mp nothing).2.trans nothing.symm
    refine (finish_keeps { scan with pending := none } true (fun _ => ended.trans nothing)
      (by rintro ⟨⟩)).congr ?_ rfl ?_
    · rw [remaining, remaining, ended]
      rfl
    · rw [work, work, ended]
  · rename_i entry handle next
    have next : scan.unread = entry :: handle := next
    dsimp only
    split
    · rename_i other
      refine ⟨?_, ?_⟩
      · rw [remaining, remaining, next, readable_cons, if_neg (by simpa using other)]
        exact .refl _
      · simp only [work, next, List.cons.sizeOf_spec]
        show 2 * sizeOf handle + _ < _
        omega
    rename_i supported
    split
    · rename_i full
      refine (finish_keeps { scan with pending := some entry, handle } false (by rintro ⟨⟩)
        fun _ => full.1).congr ?_ rfl ?_
      · rw [remaining, remaining, next]
        rfl
      · rw [work, work, next]
        rfl
    · refine ⟨?_, ?_⟩
      · rw [remaining, remaining, next, readable_cons, if_pos (by simpa using supported), taken, taken,
          filterMap_append, append_assoc]
        cases read : relayFileEntry scan.directory entry <;> simp [read] <;> exact .refl _
      · simp only [work, next, List.cons.sizeOf_spec, length_append, length_singleton]
        show 2 * sizeOf handle + _ < _
        omega

end DirectoryScan

/-! ## A turn of a search -/

namespace SearchScan

variable {texts : FileTexts}

theorem finish_keeps (scan : SearchScan)
    (some_ : 0 < scan.visits + scan.entries.length ∨ scan.active = none ∧ scan.queue = []) :
    scan.finish.Keeps (remaining texts) entries work scan := by
  refine ⟨.refl _, ?_⟩
  cases ended : scan.active.isNone && scan.queue.isEmpty with
  | true =>
    rw [Bool.and_eq_true, isNone_iff_eq_none, List.isEmpty_iff] at ended
    simp [remaining, unreadBelow, ended.1, ended.2]
  | false =>
    have more : 0 < scan.visits + scan.entries.length := by
      refine some_.resolve_right fun none_ => ?_
      simp [none_.1, none_.2] at ended
    simp only [work, List.length_nil]
    show 2 * unreadSize scan.active scan.queue + 0 + 0 < _
    omega

section visit
variable {scan : SearchScan} {folder : SearchFolder} {entry : Dirent} {handle : List Dirent}

theorem unreadBelow_visit (texts : FileTexts) (active : scan.active = some folder)
    (next : folder.unread = entry :: handle) (supported : supportedDirectoryEntry entry = true) :
    (foundEntry texts scan.queryLower folder.directory entry ++
      unreadBelow texts scan.queryLower (some { folder with pending := none, handle })
        (scan.enqueue (fileEntryPath folder.directory entry) entry)).Perm
      (unreadBelow texts scan.queryLower scan.active scan.queue) := by
  simp only [unreadBelow, active, elim_some, next, below, if_pos supported]
  refine perm_iff_count.mpr fun one => ?_
  by_cases directory : entry.kind = .directory
  · simp only [enqueue, if_pos directory, flatMap_append, flatMap_singleton, count_append]
    show _ + (count one (below texts scan.queryLower folder.directory handle) + _) = _
    omega
  · simp only [enqueue, if_neg directory, count_append, count_nil]
    show _ + (count one (below texts scan.queryLower folder.directory handle) + _) = _
    omega

theorem unreadSize_visit (active : scan.active = some folder) (next : folder.unread = entry :: handle) (path : String) :
    unreadSize (some { folder with pending := none, handle }) (scan.enqueue path entry) + 2 ≤
      unreadSize scan.active scan.queue := by
  have := entry.sizeOf_folder
  simp only [unreadSize, active, elim_some, next, List.cons.sizeOf_spec]
  by_cases directory : entry.kind = .directory
  · simp only [enqueue, if_pos directory, map_append, sum_append, map_cons, map_nil, sum_singleton]
    show sizeOf handle + _ + 2 ≤ _
    omega
  · simp only [enqueue, if_neg directory]
    show sizeOf handle + _ + 2 ≤ _
    omega

theorem visit_keeps (active : scan.active = some folder) (next : folder.unread = entry :: handle)
    (supported : supportedDirectoryEntry entry = true) :
    (visit texts scan { folder with pending := none, handle } entry).Keeps (remaining texts) entries work scan := by
  have given := unreadBelow_visit texts active next supported
  have less := unreadSize_visit active next (fileEntryPath folder.directory entry)
  unfold visit
  dsimp only
  split
  · rename_i full
    have some_ := length_pos_iff.mpr full.2.1
    let back : SearchScan := { scan with active := some { folder with pending := some entry, handle } }
    refine (finish_keeps back (.inl (by simp only [back]; omega))).congr ?_ rfl ?_
    · simp only [remaining, back, unreadBelow, active, elim_some, next]
      rfl
    · simp only [work, back, unreadSize, active, elim_some, next]
      rfl
  split
  · rename_i matched
    rw [foundEntry, if_pos matched] at given
    split
    · rename_i found read
      rw [read] at given
      refine ⟨?_, ?_⟩
      · simp only [remaining, append_assoc]
        exact given.append_left _
      · simp only [work, length_append, length_singleton]
        omega
    · rename_i failed
      rw [failed] at given
      refine ⟨given.append_left _, ?_⟩
      simp only [work, length_nil]
      omega
  · rename_i other
    rw [foundEntry, if_neg other] at given
    refine ⟨given.append_left _, ?_⟩
    simp only [work]
    omega

end visit

/-- A turn of a search gives or keeps each entry, or loses those on its page. -/
theorem turn_keeps (texts : FileTexts) (scan : SearchScan) :
    (scan.turn texts).Keeps (remaining texts) entries work scan := by
  unfold turn
  split
  · rename_i full
    refine finish_keeps scan (.inl ?_)
    simp only [fileSearchPageItems, fileSearchPageVisits] at full
    omega
  split
  · rename_i active
    split
    · rename_i queue
      exact finish_keeps scan (.inr ⟨active, queue⟩)
    rename_i next later queue
    split
    · rename_i shut
      refine ⟨.append_left _ (.of_eq ?_), ?_⟩
      · simp [remaining, unreadBelow, active, queue, shut, below]
      · simp [work, unreadSize, active, queue, shut]
        omega
    · rename_i handle opened
      refine ⟨.append_left _ (.of_eq ?_), ?_⟩
      · simp [unreadBelow, active, queue, opened]
      · simp [work, unreadSize, active, queue, opened]
  · rename_i folder active
    split
    · rename_i nothing
      have nothing : folder.unread = [] := nothing
      refine ⟨.append_left _ (.of_eq ?_), ?_⟩
      · simp [unreadBelow, active, nothing, below]
      · simp [work, unreadSize, active, nothing]
    rename_i entry handle next
    have next : folder.unread = entry :: handle := next
    dsimp only
    split
    · rename_i supported
      exact visit_keeps active next supported
    rename_i other
    have plain : entry.kind ≠ .directory := by
      intro directory
      simp [supportedDirectoryEntry, directory] at other
    refine ⟨.append_left _ (.of_eq ?_), ?_⟩
    · simp [unreadBelow, active, next, below, other, plain]
    · simp [work, unreadSize, active, next]

end SearchScan

/-! ## Runs -/

namespace FileScan

variable {texts : FileTexts}

theorem turn_keeps (texts : FileTexts) (scan : FileScan) :
    (scan.turn texts).Keeps (remaining texts) taken work scan := by
  cases scan with
  | directory scan =>
    have keeps := scan.turn_keeps texts
    rw [turn]
    generalize scan.turn texts = outcome at keeps ⊢
    cases outcome <;> exact keeps
  | search scan =>
    have keeps := scan.turn_keeps texts
    rw [turn]
    generalize scan.turn texts = outcome at keeps ⊢
    cases outcome <;> exact keeps

/-- What there is to give when a scan begins. -/
def all (texts : FileTexts) : FileScan → List RelayFileEntry
  | directory scan => readable scan.directory scan.handle
  | search scan => scan.queue.flatMap fun next => below texts scan.queryLower next.directory (next.folder.getD [])

end FileScan

namespace FileScans

variable {texts : FileTexts} {world after : FileScans} {id : String} {session : ScanSession}

/-- The pages of a scan are what there was to give, but for what it still has. It can be read on, unless it is over, and
has taken no more turns than there is work. -/
structure Kept (texts : FileTexts) (world : FileScans) (id : String) (start : FileScan) : Prop where
  fresh : start.remaining texts = start.all texts
  live : ∀ session, world.scans.get id = some session →
    ((world.pages id).flatten ++ session.scan.remaining texts).Perm (start.remaining texts) ∧
      world.turns id + session.scan.work ≤ start.work ∧ (session.busy = true ∨ session.told = true)
  ended : world.ended id = true → world.scans.get id = none ∧ (world.pages id).flatten.Perm (start.remaining texts)
  bound : world.turns id ≤ start.work + 1

/-- Each ID is one of a scan that is kept whole, or of none yet. -/
def Whole (texts : FileTexts) (world : FileScans) (id : String) : Prop :=
  match world.starts id with
  | none => world.scans.get id = none ∧ world.pages id = [] ∧ world.ended id = false ∧ world.turns id = 0
  | some start => Kept texts world id start

/-- Whether a turn loses nothing: it doesn't fail; or it isn't one of the first page, with which a caller gets the
cursor, and there is nothing on its page yet that can be read. -/
def losesNothing (texts : FileTexts) (session : ScanSession) : Bool :=
  match session.scan.turn texts with
  | .fails _ => session.told && session.scan.taken.isEmpty
  | _ => true

def Lossless (texts : FileTexts) (world : FileScans) : ScanCall → Prop
  | .turn id => (world.scans.get id).all (losesNothing texts) = true
  | _ => True

instance (texts : FileTexts) (world : FileScans) (call : ScanCall) : Decidable (Lossless texts world call) :=
  match call with
  | .turn _ => inferInstanceAs (Decidable (_ = _))
  | .list .. | .search .. | .ask .. | .expire _ => inferInstanceAs (Decidable True)

theorem Whole.congr (whole : Whole texts world id) (scans : after.scans.get id = world.scans.get id)
    (starts : after.starts id = world.starts id) (pages : after.pages id = world.pages id)
    (ended : after.ended id = world.ended id) (turns : after.turns id = world.turns id) : Whole texts after id := by
  unfold Whole at whole ⊢
  rw [starts]
  cases started : world.starts id with
  | none =>
    rw [started] at whole
    rw [scans, pages, ended, turns]
    exact whole
  | some start =>
    rw [started] at whole
    refine ⟨whole.fresh, ?_, ?_, ?_⟩
    · rw [scans, pages, turns]
      exact whole.live
    · rw [scans, pages, ended]
      exact whole.ended
    · rw [turns]
      exact whole.bound

/-- A scan there is was begun. -/
theorem Whole.started (whole : Whole texts world id) (there : world.scans.get id = some session) :
    ∃ start, world.starts id = some start ∧ Kept texts world id start := by
  unfold Whole at whole
  cases started : world.starts id with
  | none =>
    rw [started] at whole
    exact absurd (there.symm.trans whole.1) (some_ne_none _)
  | some start =>
    rw [started] at whole
    exact ⟨start, rfl, whole⟩

theorem start_whole {subject : ScanSubject} {scan : FileScan} (whole : ∀ id, Whole texts world id)
    (fresh : scan.remaining texts = scan.all texts) (step : world.start id subject scan = some after) :
    ∀ id, Whole texts after id := by
  unfold start at step
  rw [ite_none_right_eq_some] at step
  obtain ⟨⟨new, -⟩, is⟩ := step
  cases is
  intro other
  by_cases same : other = id
  · subst same
    have before := whole other
    unfold Whole at before ⊢
    rw [new] at before
    obtain ⟨-, pages, ended, turns⟩ := before
    simp only [update_self]
    refine ⟨fresh, fun session there => ?_, fun is => ?_, ?_⟩
    · rw [OrderedMap.get_set, if_pos rfl] at there
      cases there
      dsimp only
      rw [pages, turns]
      exact ⟨.refl _, by omega, .inl rfl⟩
    · exact absurd (ended.symm.trans is) (by decide)
    · dsimp only
      omega
  · refine (whole other).congr ?_ ?_ rfl rfl rfl
    · exact (OrderedMap.get_set ..).trans (if_neg (Ne.symm same))
    · exact update_of_ne same _ _

/-- What a turn leaves of the scan it is of. -/
theorem settle_whole (whole : Whole texts world id) (there : world.scans.get id = some session)
    (lossless : Lossless texts world (.turn id)) :
    Whole texts { world.settle id session (session.scan.turn texts) with
      turns := update world.turns id (world.turns id + 1) } id := by
  obtain ⟨start, started, kept⟩ := whole.started there
  obtain ⟨given, turns, open_⟩ := kept.live session there
  have keeps := session.scan.turn_keeps texts
  have running : world.ended id ≠ true := by
    intro finished
    exact some_ne_none _ (there.symm.trans (kept.ended finished).1)
  have noLoss : losesNothing texts session = true := by
    rw [Lossless, there] at lossless
    exact lossless
  unfold losesNothing at noLoss
  generalize session.scan.turn texts = outcome at keeps noLoss
  unfold Whole
  cases outcome with
  | goes next =>
    simp only [settle, started]
    refine ⟨kept.fresh, fun session' is => ?_, fun finished => absurd finished running, ?_⟩
    · rw [OrderedMap.get_set, if_pos rfl] at is
      cases is
      refine ⟨(keeps.1.append_left _).trans given, ?_, open_⟩
      have := keeps.2
      simp only [update_self]
      omega
    · simp only [update_self]
      omega
  | page entries complete next =>
    have flat : (world.pages id ++ [entries]).flatten = (world.pages id).flatten ++ entries := by simp
    have perm : ((world.pages id).flatten ++ entries ++ next.remaining texts).Perm (start.remaining texts) := by
      rw [List.append_assoc]
      exact (keeps.1.append_left _).trans given
    simp only [settle, started]
    cases complete with
    | true =>
      have nothing : next.remaining texts = [] := keeps.2
      rw [nothing, List.append_nil] at perm
      refine ⟨kept.fresh, fun session' is => ?_, fun _ => ⟨?_, ?_⟩, ?_⟩
      · simp at is
      · simp
      · simpa only [update_self, flat] using perm
      · simp only [update_self]
        omega
    | false =>
      have fewer : next.work < session.scan.work := keeps.2
      refine ⟨kept.fresh, fun session' is => ?_, fun finished => ?_, ?_⟩
      · rw [if_neg Bool.false_ne_true, OrderedMap.get_set, if_pos rfl] at is
        cases is
        simp only [update_self, flat]
        exact ⟨perm, by omega, .inr trivial⟩
      · simp at finished
      · simp only [update_self]
        omega
  | fails next =>
    rw [Bool.and_eq_true, List.isEmpty_iff] at noLoss
    obtain ⟨told, nothing⟩ := noLoss
    have perm := keeps.1
    rw [nothing, List.nil_append] at perm
    simp only [settle, started]
    refine ⟨kept.fresh, fun session' is => ?_, fun finished => absurd finished running, ?_⟩
    · rw [OrderedMap.get_set, if_pos rfl] at is
      cases is
      refine ⟨(perm.append_left _).trans given, ?_, .inr told⟩
      have := keeps.2
      simp only [update_self]
      omega
    · simp only [update_self]
      omega

theorem settle_elsewhere (outcome : ScanTurn FileScan) {other : String} (differs : id ≠ other) :
    (world.settle id session outcome).scans.get other = world.scans.get other ∧
      (world.settle id session outcome).starts other = world.starts other ∧
      (world.settle id session outcome).pages other = world.pages other ∧
      (world.settle id session outcome).ended other = world.ended other := by
  cases outcome with
  | goes next => simp [settle, differs]
  | page entries complete next => cases complete <;> simp [settle, differs, update_of_ne differs.symm]
  | fails next => simp [settle, differs]

/-- Scans that go on where they are, or are dropped. -/
theorem Whole.drops {scans : OrderedMap String ScanSession} (whole : Whole texts world id)
    (same : ∀ session, scans.get id = some session → ∃ before, world.scans.get id = some before ∧
      (session = before ∨ session.scan = before.scan ∧ session.busy = true)) :
    Whole texts { world with scans } id := by
  have gone : world.scans.get id = none → scans.get id = none := by
    intro none_
    by_contra there
    obtain ⟨session, there⟩ := ne_none_iff_exists'.mp there
    obtain ⟨before, was, -⟩ := same session there
    exact some_ne_none _ (was.symm.trans none_)
  unfold Whole at whole ⊢
  dsimp only
  cases started : world.starts id with
  | none =>
    rw [started] at whole
    exact ⟨gone whole.1, whole.2⟩
  | some start =>
    rw [started] at whole
    refine ⟨whole.fresh, fun session there => ?_, fun finished => (whole.ended finished).imp_left gone, whole.bound⟩
    obtain ⟨before, was, rfl | ⟨scan, busy⟩⟩ := same session there
    · exact whole.live session was
    · obtain ⟨given, turns, -⟩ := whole.live before was
      rw [scan]
      exact ⟨given, turns, .inl busy⟩

theorem step_whole {call : ScanCall} (whole : ∀ id, Whole texts world id) (lossless : Lossless texts world call)
    (step : world.step texts call = some after) : ∀ id, Whole texts after id := by
  cases call with
  | list id instanceId directory entries => exact start_whole whole rfl step
  | search id instanceId query root => exact start_whole whole rfl step
  | ask id subject =>
    simp only [FileScans.step] at step
    split at step
    · cases step
      exact whole
    rename_i session there
    split at step
    · cases step
    split at step
    · cases step
      exact whole
    cases step
    refine fun other => (whole other).drops fun session' is => ?_
    rw [OrderedMap.get_set] at is
    split at is
    · rename_i same
      cases is
      exact ⟨session, same ▸ there, .inr ⟨rfl, rfl⟩⟩
    · exact ⟨session', is, .inl rfl⟩
  | turn id =>
    simp only [FileScans.step] at step
    split at step
    · cases step
    rename_i session there
    rw [ite_none_right_eq_some] at step
    cases step.2
    intro other
    by_cases same : id = other
    · subst same
      exact settle_whole (whole id) there lossless
    · obtain ⟨scans, starts, pages, ended⟩ := settle_elsewhere (session.scan.turn texts) same
      exact (whole other).congr scans starts pages ended (update_of_ne (Ne.symm same) _ _)
  | expire id =>
    cases step
    refine fun other => (whole other).drops fun session is => ?_
    rw [OrderedMap.get_delete] at is
    split at is
    · cases is
    · exact ⟨session, is, .inl rfl⟩

/-- In every run whose failures lose nothing, a scan that is over has given each entry there was to
    give on one of its pages, and one that isn't can be read on, and is over in so many turns. -/
theorem fileScans_whole (texts : FileTexts) {world : FileScans}
    (reached : ((fileScanSystem texts).restrict (Lossless texts)).Reachable world) {id : String} {start : FileScan}
    (started : world.starts id = some start) :
    (world.ended id = true → (world.pages id).flatten.Perm (start.all texts)) ∧
      (∀ session, world.scans.get id = some session →
        ((world.pages id).flatten ++ session.scan.remaining texts).Perm (start.all texts) ∧
          (session.busy = true ∨ session.told = true)) ∧
      world.turns id ≤ start.work + 1 := by
  have whole : ∀ id, Whole texts world id := by
    refine reached.invariant (I := fun world => ∀ id, Whole texts world id) ?_ ?_
    · rintro _ rfl id
      exact ⟨rfl, rfl, rfl, rfl⟩
    · rintro before call after whole ⟨lossless, step⟩
      exact step_whole whole lossless step
  have kept := whole id
  unfold Whole at kept
  rw [started] at kept
  rw [← kept.fresh]
  refine ⟨fun finished => (kept.ended finished).2, fun session there => ?_, kept.bound⟩
  obtain ⟨given, -, open_⟩ := kept.live session there
  exact ⟨given, open_⟩

/-- Files of one folder, of which all but the last can be read. -/
def logs (readable : Nat) : List Dirent :=
  (range readable).map (fun number => .mk (toString (100 + number)) .file (some ⟨0, number⟩) false none) ++
    [.mk "999" .file none false none]

/-- The texts of such a folder: each of its paths is three bytes long. -/
def plainTexts : FileTexts := ⟨fun _ => 3, fun text => text, fun _ _ => true⟩

/-- The first page has as many files as a page may. The one after it and the file that can't be read are on the second,
which fails; asked again, the listing is over. -/
def logsCalls : List ScanCall :=
  .list "scan" "instance" "" (logs 129) :: replicate 129 (.turn "scan") ++
    .ask "scan" (.directory "instance" "") :: replicate 3 (.turn "scan") ++
    [.ask "scan" (.directory "instance" ""), .turn "scan"]

def logsListed : FileScans :=
  (runAll (FileScans.step plainTexts) {} logsCalls).get (by decide +kernel)

/-- The last page has no cursor, and the file that was on the page that failed is on none. -/
theorem logs_lost : (fileScanSystem plainTexts).Reachable logsListed ∧ logsListed.ended "scan" = true ∧
    (logsListed.pages "scan").map length = [128, 0] ∧ (readable "" (logs 129)).length = 129 :=
  ⟨System.reachable_of_runAll (· = ({} : FileScans)) (FileScans.step plainTexts) rfl logsCalls (by decide +kernel),
    by decide +kernel, by decide +kernel, by decide +kernel⟩

/-- A folder of one file, listed to its end. -/
def oneLog : List Dirent := [.mk "app.log" .file (some ⟨0, 1⟩) false none]

def oneListed : FileScans :=
  (runAll (fun world call => if Lossless plainTexts world call then world.step plainTexts call else none) {}
    [.list "scan" "instance" "" oneLog, .turn "scan", .turn "scan"]).get (by decide)

theorem fileScans_whole_oneListed :
    oneListed.ended "scan" = true ∧ (oneListed.pages "scan").flatten.Perm (readable "" oneLog) := by
  have reached : ((fileScanSystem plainTexts).restrict (Lossless plainTexts)).Reachable oneListed :=
    System.reachable_of_guardedRunAll (· = ({} : FileScans)) (FileScans.step plainTexts) (Lossless plainTexts) rfl
      [.list "scan" "instance" "" oneLog, .turn "scan", .turn "scan"] (by decide)
  have started : oneListed.starts "scan" = some (.directory { directory := "", handle := oneLog }) := rfl
  have finished : oneListed.ended "scan" = true := by decide
  exact ⟨finished, (fileScans_whole plainTexts reached started).1 finished⟩

end FileScans

end Kiln.Relay
