import Kiln.Relay.TransferSources

/-!
# Sources whose prepares and removals keep apart

Every run of `TransferSources` (`apps/relay/src/transfers/peer/sources.ts`) keeps one whole artifact per
transfer, where a prepare that finds no record begins with nothing of the transfer under way, no removal
lists the files while a packing has yet to make its own, and the Relay doesn't stop between a removal's
artifact and its ready record.

While a packing's fiber is alive the record says so, in memory and on disk, and the only calls wait for
the fiber to end. Work that goes on without its fiber can only fill or remove a file that is there.
-/

namespace Kiln.Relay
open Kiln.Lib OrderedMap Option

variable {β δ ρ : Type}

def PackWork.isCollecting : PackWork β → Bool
  | .collecting => true
  | _ => false

namespace SourceWorld

/-- What holds of a transfer. -/
structure Sound (digest : List β → δ) (world : SourceWorld β δ ρ) : Prop where
  one : ∀ packing other, world.UnderWay packing → world.UnderWay other → packing = other
  running : ∀ packing fiber, world.fibers.get packing = some fiber → world.packing = some packing ∧
    (∃ record, world.memory = some record ∧ record.state = .packing) ∧
    (∃ record, world.disk = some record ∧ record.state = .packing) ∧
    (∀ id call, world.calls.get id = some call → call = .remove (.interrupting packing)) ∧
    world.removed = false ∧ world.loading = false
  unworked : ∀ packing fiber, world.fibers.get packing = some fiber → fiber.stage ≠ .packing →
    ∀ other, world.works.get other = none
  written : ∀ packing fiber content, world.fibers.get packing = some fiber →
    world.works.get packing = some (.writing content) → world.file = some ⟨packing, content⟩
  saving : ∀ packing fiber record, world.fibers.get packing = some fiber →
    fiber.stage = .saving record → record.state = .ready → world.Names digest record
  memoryReady : ∀ record, world.memory = some record → record.state = .ready →
    world.Names digest record ∧ ∀ packing, world.works.get packing = none
  diskReady : ∀ record, world.disk = some record → record.state = .ready → (∀ packing, world.works.get packing = none) ∧
    (world.Names digest record ∨ ∃ id left, world.calls.get id = some (.remove (.removing left)) ∧ .artifact ∉ left)
  removal : ∀ id stage, world.calls.get id = some (.remove stage) → world.loading = false ∧
    (∀ id' root stage', world.calls.get id' ≠ some (.prepare root stage')) ∧
    ((∀ packing, stage ≠ .interrupting packing) → world.memory = none ∧ ∀ packing, world.fibers.get packing = none)
  left : ∀ id left, world.calls.get id = some (.remove (.removing left)) → left.Nodup ∧
    (world.disk.isSome = true → .record ∈ left) ∧ (world.file.isSome = true → .artifact ∈ left) ∧
    ∀ packing, world.works.get packing ≠ some .collecting
  preparing : ∀ id root stage, world.calls.get id = some (.prepare root stage) →
    world.loading = false ∧ world.memory = none ∧ world.removed = false ∧
    (∀ packing, ¬ world.UnderWay packing) ∧ ∀ id' call, world.calls.get id' = some call → id' = id
  gone : world.removed = true → world.memory = none ∧ world.disk = none ∧ world.file = none ∧
    (∀ packing, world.fibers.get packing = none) ∧
    (∀ packing, world.works.get packing ≠ some .collecting) ∧ world.loading = false
  loading : world.loading = true → (∀ id, world.calls.get id = none) ∧
    (∀ packing, ¬ world.UnderWay packing) ∧ world.memory = none ∧
    ∃ record, world.disk = some record ∧ record.state = .packing

/-- Whether a removal has removed the artifact and not yet the record that names it. -/
def HalfRemoved (world : SourceWorld β δ ρ) : SourceCall ρ → Bool
  | .remove (.removing left) =>
      .record ∈ left && !decide (.artifact ∈ left) && world.disk.any (fun record => record.state = .ready)
  | _ => false

/-- A condition on a step. A prepare that finds no record begins with nothing of the transfer under way; no removal
lists the files while a packing has yet to make its own; and the Relay doesn't stop with a ready record on disk whose
artifact a removal has removed. -/
def Apart (world : SourceWorld β δ ρ) : SourceEvent β δ ρ → Prop
  | .prepare _ _ => world.memory.isSome = true ∨
      (world.calls.entries = [] ∧ world.fibers.entries = [] ∧ world.works.entries = [])
  | .listed _ _ => world.works.entries.all (fun entry => !entry.2.isCollecting) = true
  | .restart _ => world.calls.entries.all (fun entry => !world.HalfRemoved entry.2) = true
  | _ => True

instance (world : SourceWorld β δ ρ) (event : SourceEvent β δ ρ) : Decidable (world.Apart event) := by
  cases event with
  | prepare _ _ =>
    unfold Apart
    have (m : OrderedMap Nat (SourceCall ρ)) : Decidable (m.entries = []) :=
      decidable_of_iff (m.entries.isEmpty = true) List.isEmpty_iff
    have (m : OrderedMap Nat (PackFiber δ ρ)) : Decidable (m.entries = []) :=
      decidable_of_iff (m.entries.isEmpty = true) List.isEmpty_iff
    have (m : OrderedMap Nat (PackWork β)) : Decidable (m.entries = []) :=
      decidable_of_iff (m.entries.isEmpty = true) List.isEmpty_iff
    infer_instance
  | _ => unfold Apart; infer_instance

variable {digest : List β → δ} {world : SourceWorld β δ ρ}

namespace Sound

/-! ## While a fiber is alive -/

variable {packing : Nat} {fiber : PackFiber δ ρ}

theorem goes (sound : world.Sound digest) (is : world.fibers.get packing = some fiber) (now : PackFiber δ ρ)
    (works : OrderedMap Nat (PackWork β)) (file : Option (SourceArtifact β))
    {calls : OrderedMap Nat (SourceCall ρ)}
    (own : ∀ other, (works.get other).isSome = true → other = packing)
    (unworked : now.stage ≠ .packing → ∀ other, works.get other = none)
    (written : ∀ content, works.get packing = some (.writing content) → file = some ⟨packing, content⟩)
    (saving : ∀ record, now.stage = .saving record → record.state = .ready →
      ∃ artifact, file = some artifact ∧ record.size = some artifact.content.length ∧
        record.sha256 = some (digest artifact.content))
    (waits : ∀ id call, calls.get id = some call → call = .remove (.interrupting packing)) :
    Sound digest { world with fibers := world.fibers.set packing now, works, file, calls } := by
  rcases sound.running packing fiber is with ⟨noted, memory, disk, -, notRemoved, notLoading⟩
  have only : ∀ other fiber', (world.fibers.set packing now).get other = some fiber' →
      other = packing ∧ fiber' = now := by
    intro other fiber' is'
    rw [get_set] at is'
    split at is'
    · rename_i same
      exact ⟨same.symm, (Option.some.inj is').symm⟩
    rename_i notSame
    refine absurd (sound.one packing other (.inl ?_) (.inl ?_)) notSame
    · rw [is]
      rfl
    · rw [is']
      rfl
  have alive : ∀ other, UnderWay { world with
      fibers := world.fibers.set packing now, works, file, calls } other → other = packing := by
    rintro other (fiber' | work)
    · rcases isSome_iff_exists.mp fiber' with ⟨fiber', is'⟩
      exact (only other fiber' is').1
    · exact own other work
  refine {
    one := fun other other' under under' => (alive other under).trans (alive other' under').symm
    running := ?_, unworked := ?_, written := ?_, saving := ?_, memoryReady := ?_, diskReady := ?_,
    removal := ?_, left := ?_, preparing := ?_, gone := ?_, loading := ?_ }
  · intro other fiber' is'
    obtain ⟨rfl, -⟩ := only other fiber' is'
    exact ⟨noted, memory, disk, waits, notRemoved, notLoading⟩
  · intro other fiber' is'
    obtain ⟨-, rfl⟩ := only other fiber' is'
    exact unworked
  · intro other fiber' content is'
    obtain ⟨rfl, -⟩ := only other fiber' is'
    exact written content
  · intro other fiber' record is'
    obtain ⟨-, rfl⟩ := only other fiber' is'
    exact saving record
  · intro record held ready
    rcases memory with ⟨record', held', packing'⟩
    cases held'.symm.trans held
    exact nomatch packing'.symm.trans ready
  · intro record held ready
    rcases disk with ⟨record', held', packing'⟩
    cases held'.symm.trans held
    exact nomatch packing'.symm.trans ready
  · intro id stage there
    refine ⟨notLoading, fun id' root stage' there' => (nomatch waits id' _ there'), fun other => ?_⟩
    exact absurd (SourceCall.remove.inj (waits id _ there)) (other packing)
  · intro id left there
    exact nomatch waits id _ there
  · intro id root stage there
    exact nomatch waits id _ there
  · intro removed
    exact nomatch notRemoved.symm.trans removed
  · intro loading
    exact nomatch notLoading.symm.trans loading

variable {disk : Option (SourceRecord δ ρ)}

theorem ends (sound : world.Sound digest)
    (is : world.fibers.get packing = some fiber) {memory : Option (SourceRecord δ ρ)}
    (memoryReady : ∀ record, memory = some record → record.state = .ready →
      world.Names digest record ∧ ∀ packing, world.works.get packing = none)
    (diskReady : ∀ record, disk = some record → record.state = .ready →
      world.Names digest record ∧ ∀ packing, world.works.get packing = none) :
    (ended { world with memory, disk } packing).Sound digest := by
  rcases sound.running packing fiber is with ⟨-, -, -, waits, notRemoved, notLoading⟩
  have none' : ∀ other, (world.fibers.delete packing).get other = none := by
    intro other
    rw [get_delete]
    split
    · rfl
    rename_i notSame
    cases is' : world.fibers.get other with
    | none => rfl
    | some fiber' =>
      refine absurd (sound.one packing other (.inl ?_) (.inl ?_)) notSame
      · rw [is]
        rfl
      · rw [is']
        rfl
  refine {
    one := ?_, running := ?_, unworked := ?_, written := ?_, saving := ?_, memoryReady := memoryReady,
    diskReady := fun record held ready => ⟨(diskReady record held ready).2, .inl (diskReady record held ready).1⟩
    removal := ?_, left := ?_, preparing := ?_, gone := ?_, loading := ?_ }
  · rintro other other' under under'
    have works : ∀ n, (ended { world with memory, disk } packing).UnderWay n → world.UnderWay n := by
      rintro n (fiber' | work)
      · rw [show (ended { world with memory, disk } packing).fibers.get n = none from none' n] at fiber'
        exact nomatch fiber'
      · exact .inr work
    exact sound.one other other' (works other under) (works other' under')
  · intro other fiber' is'
    exact nomatch (none' other).symm.trans is'
  · intro other fiber' is'
    exact nomatch (none' other).symm.trans is'
  · intro other fiber' content is'
    exact nomatch (none' other).symm.trans is'
  · intro other fiber' record is'
    exact nomatch (none' other).symm.trans is'
  · intro id stage there
    refine ⟨notLoading, fun id' root stage' there' => (nomatch waits id' _ there'), fun other => ?_⟩
    exact absurd (SourceCall.remove.inj (waits id _ there)) (other packing)
  · intro id left there
    exact nomatch waits id _ there
  · intro id root stage there
    exact nomatch waits id _ there
  · intro removed
    exact nomatch notRemoved.symm.trans removed
  · intro loading
    exact nomatch notLoading.symm.trans loading

/-! ## Work without its fiber -/

variable {file : Option (SourceArtifact β)}

theorem detached (sound : world.Sound digest)
    (under : (world.works.get packing).isSome = true) (gone' : world.fibers.get packing = none)
    {works : OrderedMap Nat (PackWork β)}
    (fewer : ∀ other, (works.get other).isSome = true → (world.works.get other).isSome = true)
    (collecting : ∀ other, works.get other = some .collecting → world.works.get other = some .collecting)
    (made : file.isSome = true → world.file.isSome = true ∨ world.works.get packing = some .collecting) :
    Sound digest { world with works, file } := by
  have none' : ∀ other, world.fibers.get other = none := by
    intro other
    cases is : world.fibers.get other with
    | none => rfl
    | some fiber =>
      obtain rfl : packing = other := sound.one packing other (.inr under) (.inl (by rw [is]; rfl))
      exact nomatch gone'.symm.trans is
  have noReady {P : Prop} (all : ∀ other, world.works.get other = none) : P := by
    rw [all packing] at under
    cases under
  have was : ∀ other, UnderWay { world with works, file } other → world.UnderWay other := by
    rintro other (fiber | work)
    · exact .inl fiber
    · exact .inr (fewer other work)
  refine { sound with
    one := ?_, running := ?_, unworked := ?_, written := ?_, saving := ?_, memoryReady := ?_,
    diskReady := ?_, left := ?_, preparing := ?_, gone := ?_, loading := ?_ }
  · exact fun other other' under under' => sound.one other other' (was other under) (was other' under')
  · intro other fiber is
    exact nomatch (none' other).symm.trans is
  · intro other fiber is
    exact nomatch (none' other).symm.trans is
  · intro other fiber content is
    exact nomatch (none' other).symm.trans is
  · intro other fiber record is
    exact nomatch (none' other).symm.trans is
  · exact fun record held ready => noReady (sound.memoryReady record held ready).2
  · exact fun record held ready => noReady (sound.diskReady record held ready).1
  · intro id left there
    rcases sound.left id left there with ⟨distinct, record, artifact, notCollecting⟩
    refine ⟨distinct, record, fun is => artifact ?_, fun other is => notCollecting other (collecting other is)⟩
    exact (made is).resolve_right (notCollecting packing)
  · intro id root stage there
    exact absurd (.inr under) ((sound.preparing id root stage there).2.2.2.1 packing)
  · intro removed
    rcases sound.gone removed with ⟨memory, disk, file', fibers, notCollecting, loading⟩
    refine ⟨memory, disk, ?_, fibers, fun other is => notCollecting other (collecting other is), loading⟩
    show file = none
    cases is : file with
    | none => rfl
    | some artifact =>
      rcases made (by rw [is]; rfl) with some' | some'
      · rw [file'] at some'
        exact nomatch some'
      · exact absurd some' (notCollecting packing)
  · intro loading
    exact absurd (.inr under) ((sound.loading loading).2.1 packing)

/-! ## Prepares -/

theorem noFiber_of_idle (idle : ∀ packing, ¬ world.UnderWay packing) (packing : Nat) :
    world.fibers.get packing = none := by
  cases is : world.fibers.get packing with
  | none => rfl
  | some fiber => exact absurd (.inl (by rw [is]; rfl)) (idle packing)

theorem noWork_of_idle (idle : ∀ packing, ¬ world.UnderWay packing) (packing : Nat) :
    world.works.get packing = none := by
  cases is : world.works.get packing with
  | none => rfl
  | some work => exact absurd (.inr (by rw [is]; rfl)) (idle packing)

/-- A prepare that found no record, and its answer. -/
theorem prepares (sound : world.Sound digest) (loaded : world.loading = false)
    (held : world.memory = none) (idle : ∀ packing, ¬ world.UnderWay packing) (id : Nat)
    (calls : OrderedMap Nat (SourceCall ρ)) (again : Bool)
    (alone : ∀ id' call, world.calls.get id' = some call → id' = id ∧ ∃ root stage, call = .prepare root stage)
    (still : ∀ id' call, calls.get id' = some call → id' = id ∧ ∃ root stage, call = .prepare root stage) :
    Sound digest { world with calls, again, removed := false } := by
  have noFiber := noFiber_of_idle idle
  refine { sound with
    running := ?_, diskReady := ?_, removal := ?_, left := ?_, preparing := ?_, gone := nofun, loading := ?_ }
  · intro packing fiber is
    exact nomatch (noFiber packing).symm.trans is
  · intro record disk ready
    refine ⟨(sound.diskReady record disk ready).1, .inl ?_⟩
    rcases (sound.diskReady record disk ready).2 with names | ⟨id', left, there, -⟩
    · exact names
    · rcases (alone id' _ there).2 with ⟨root, stage, is⟩
      cases is
  · intro id' stage there
    rcases (still id' _ there).2 with ⟨root, stage', is⟩
    cases is
  · intro id' left there
    rcases (still id' _ there).2 with ⟨root, stage', is⟩
    cases is
  · intro id' root stage there
    refine ⟨loaded, held, rfl, idle, fun id'' call there' => ?_⟩
    exact (still id'' call there').1.trans (still id' _ there).1.symm
  · intro loading
    exact nomatch loaded.symm.trans loading

variable {id : Nat}

/-- A packing is forked. -/
theorem forks (sound : world.Sound digest) {root : ρ} {stage : PrepareStage}
    (there : world.calls.get id = some (.prepare root stage)) :
    Sound digest { world with
      disk := some (.packing root)
      memory := some (.packing root)
      calls := world.calls.delete id
      fibers := world.fibers.set world.nextPacking { root }
      packing := some world.nextPacking
      nextPacking := world.nextPacking + 1 } := by
  rcases sound.preparing id root stage there with ⟨loaded, -, notRemoved, idle, alone⟩
  have noCall : ∀ id', (world.calls.delete id).get id' = none := by
    intro id'
    rw [get_delete]
    split
    · rfl
    · rename_i other
      cases is : world.calls.get id' with
      | none => rfl
      | some call => exact absurd (alone id' call is).symm other
  have noWork := noWork_of_idle idle
  have only : ∀ other fiber', (world.fibers.set world.nextPacking { root }).get other = some fiber' →
      other = world.nextPacking ∧ fiber' = { root } := by
    intro other fiber' is
    rw [get_set] at is
    split at is
    · rename_i same
      exact ⟨same.symm, (Option.some.inj is).symm⟩
    · exact nomatch (noFiber_of_idle idle other).symm.trans is
  refine {
    one := ?_, running := ?_, unworked := fun _ _ _ _ => noWork, written := ?_, saving := ?_,
    memoryReady := ?_, diskReady := ?_, removal := ?_, left := ?_, preparing := ?_, gone := ?_,
    loading := ?_ }
  · have own : ∀ other, UnderWay { world with
        disk := some (.packing root)
        memory := some (.packing root)
        calls := world.calls.delete id
        fibers := world.fibers.set world.nextPacking { root }
        packing := some world.nextPacking
        nextPacking := world.nextPacking + 1 } other → other = world.nextPacking := by
      rintro other (fiber | work)
      · rcases isSome_iff_exists.mp fiber with ⟨fiber', is⟩
        exact (only other fiber' is).1
      · exact absurd (.inr work) (idle other)
    exact fun other other' under under' => (own other under).trans (own other' under').symm
  · intro other fiber is
    obtain ⟨rfl, -⟩ := only other fiber is
    refine ⟨rfl, ⟨_, rfl, rfl⟩, ⟨_, rfl, rfl⟩, fun id' call there' => ?_, notRemoved, loaded⟩
    exact nomatch (noCall id').symm.trans there'
  · intro other fiber content _ work
    exact nomatch (noWork other).symm.trans work
  · intro other fiber record is saves
    obtain ⟨-, rfl⟩ := only other fiber is
    cases saves
  · rintro record ⟨⟩ ready
    cases ready
  · rintro record ⟨⟩ ready
    cases ready
  · intro id' stage' there'
    exact nomatch (noCall id').symm.trans there'
  · intro id' left there'
    exact nomatch (noCall id').symm.trans there'
  · intro id' root' stage' there'
    exact nomatch (noCall id').symm.trans there'
  · intro removed
    exact nomatch notRemoved.symm.trans removed
  · intro loading
    exact nomatch loaded.symm.trans loading

/-! ## Removals -/

theorem forgets (sound : world.Sound digest) (loaded : world.loading = false)
    (noFiber : ∀ packing, world.fibers.get packing = none)
    (noPrepare : ∀ id root stage, world.calls.get id ≠ some (.prepare root stage))
    (was : ∀ left, world.calls.get id ≠ some (.remove (.removing left))) :
    (world.forget id).Sound digest := by
  have still : ∀ id' call, (world.calls.set id (.remove .listing)).get id' = some call →
      call = .remove .listing ∨ world.calls.get id' = some call := by
    intro id' call there
    rw [get_set] at there
    split at there
    · exact .inl (Option.some.inj there).symm
    · exact .inr there
  have noPrepare' : ∀ id' root stage, (world.calls.set id (.remove .listing)).get id' ≠ some (.prepare root stage) := by
    intro id' root stage there
    rcases still id' _ there with new | old
    · cases new
    · exact noPrepare id' root stage old
  refine { sound with
    running := ?_, memoryReady := ?_, diskReady := ?_, removal := ?_, left := ?_, preparing := ?_,
    gone := ?_, loading := ?_ }
  · intro packing fiber is
    exact nomatch (noFiber packing).symm.trans is
  · rintro record ⟨⟩
  · intro record held ready
    rcases sound.diskReady record held ready with ⟨noWork, names | ⟨id', left, there, less⟩⟩
    · exact ⟨noWork, .inl names⟩
    refine ⟨noWork, .inr ⟨id', left, ?_, less⟩⟩
    show (world.calls.set id (.remove .listing)).get id' = _
    rw [get_set, if_neg]
    · exact there
    · rintro rfl
      exact was left there
  · intro id' stage there
    exact ⟨loaded, noPrepare', fun _ => ⟨rfl, noFiber⟩⟩
  · intro id' left there
    rcases still id' _ there with new | old
    · cases new
    · exact sound.left id' left old
  · exact fun id' root stage there => absurd there (noPrepare' id' root stage)
  · exact fun removed => ⟨rfl, (sound.gone removed).2⟩
  · intro loading
    exact nomatch loaded.symm.trans loading

variable {record : SourceRecord δ ρ}

theorem removes (sound : world.Sound digest) (loaded : world.loading = false)
    (held : world.memory = some record) (new : world.calls.get id = none) :
    (world.remove id).Sound digest := by
  have noPrepare : ∀ id' root stage, world.calls.get id' ≠ some (.prepare root stage) := by
    intro id' root stage there
    exact nomatch held.symm.trans (sound.preparing id' root stage there).2.1
  have was : ∀ left, world.calls.get id ≠ some (.remove (.removing left)) := by
    intro left there
    exact nomatch new.symm.trans there
  unfold SourceWorld.remove
  split
  · rename_i unnoted
    refine sound.forgets loaded (fun packing => ?_) noPrepare was
    cases is : world.fibers.get packing with
    | none => rfl
    | some fiber => exact nomatch unnoted.symm.trans (sound.running packing fiber is).1
  rename_i packing noted
  split
  · rename_i finished
    refine sound.forgets loaded (fun other => ?_) noPrepare was
    cases is : world.fibers.get other with
    | none => rfl
    | some fiber =>
      cases noted.symm.trans (sound.running other fiber is).1
      exact nomatch finished.symm.trans is
  rename_i fiber is
  refine sound.goes is { fiber with interrupted := true } world.works world.file ?_ ?_ ?_ ?_ ?_
  · exact fun other work => sound.one other packing (.inr work) (.inl (by rw [is]; rfl))
  · exact fun stage => sound.unworked packing fiber is stage
  · exact fun content work => sound.written packing fiber content is work
  · exact fun seen saves ready => sound.saving packing fiber seen is saves ready
  · intro id' call there
    rw [get_set] at there
    split at there
    · exact (Option.some.inj there).symm
    · exact (sound.running packing fiber is).2.2.2.1 id' call there

/-- A removal goes on to the files that are left, or is done. -/
theorem removing (sound : world.Sound digest) {stage : RemoveStage} (there : world.calls.get id = some (.remove stage))
    (past : ∀ packing, stage ≠ .interrupting packing) {left : List SourceFile}
    (distinct : left.Nodup) (record : disk.isSome = true → .record ∈ left)
    (artifact : file.isSome = true → .artifact ∈ left)
    (notCollecting : ∀ packing, world.works.get packing ≠ some .collecting)
    (disk' : disk = world.disk ∨ disk = none)
    (file' : file = world.file ∨ (file = none ∧ .artifact ∉ left))
    (less : ∀ before, stage = .removing before → .artifact ∉ before → .artifact ∉ left) :
    (SourceWorld.removing { world with disk, file } id left).Sound digest := by
  rcases sound.removal id stage there with ⟨loaded, noPrepare, rest⟩
  rcases rest past with ⟨memory, noFiber⟩
  have diskWas : ∀ now, disk = some now → world.disk = some now := by
    intro now held
    rcases disk' with same | none'
    · exact same.symm.trans held
    · exact nomatch none'.symm.trans held
  have fileWas : file.isSome = true → world.file.isSome = true := by
    intro some'
    rcases file' with same | ⟨none', -⟩
    · rwa [← same]
    · rw [none'] at some'
      exact nomatch some'
  -- What is still to be listed as removing, once this removal has gone on.
  have kept {calls : OrderedMap Nat (SourceCall ρ)} {removed : Bool}
      (other : ∀ id', id ≠ id' → calls.get id' = world.calls.get id')
      (this : calls.get id = some (.remove (.removing left)) ∨ (calls.get id = none ∧ disk = none ∧ file = none))
      (removed' : removed = true → world.removed = true ∨ (disk = none ∧ file = none)) :
      Sound digest { world with disk, file, calls, removed } := by
    have noPrepare' : ∀ id' root stage', calls.get id' ≠ some (.prepare root stage') := by
      intro id' root stage' there'
      by_cases here : id = id'
      · subst here
        rcases this with is | ⟨is, -⟩ <;> exact nomatch is.symm.trans there'
      · rw [other id' here] at there'
        exact noPrepare id' root stage' there'
    refine { sound with
      running := ?_, written := ?_, saving := ?_, memoryReady := ?_, diskReady := ?_, removal := ?_,
      left := ?_, preparing := ?_, gone := ?_, loading := ?_ }
    · intro packing fiber is
      exact nomatch (noFiber packing).symm.trans is
    · intro packing fiber content is
      exact nomatch (noFiber packing).symm.trans is
    · intro packing fiber seen is
      exact nomatch (noFiber packing).symm.trans is
    · intro now held
      exact nomatch memory.symm.trans held
    · intro now held ready
      have before := sound.diskReady now (diskWas now held) ready
      refine ⟨before.1, ?_⟩
      rcases this with this | ⟨-, none', -⟩
      · rcases file' with same | ⟨-, gone'⟩
        · rcases before.2 with names | ⟨id', left', there', less'⟩
          · left
            rcases names with ⟨made, is, names⟩
            exact ⟨made, same.trans is, names⟩
          · right
            by_cases here : id = id'
            · subst here
              rw [there] at there'
              have is := SourceCall.remove.inj (Option.some.inj there')
              exact ⟨id, left, this, less left' is less'⟩
            · exact ⟨id', left', (other id' here).trans there', less'⟩
        · exact .inr ⟨id, left, this, gone'⟩
      · exact nomatch none'.symm.trans held
    · intro id' stage' _
      exact ⟨loaded, noPrepare', fun _ => ⟨memory, noFiber⟩⟩
    · intro id' left' there'
      by_cases here : id = id'
      · subst here
        rcases this with this | ⟨this, -⟩
        · obtain rfl := RemoveStage.removing.inj (SourceCall.remove.inj (Option.some.inj (this.symm.trans there')))
          exact ⟨distinct, record, artifact, notCollecting⟩
        · exact nomatch this.symm.trans there'
      · rw [other id' here] at there'
        rcases sound.left id' left' there' with ⟨distinct', record', artifact', collecting'⟩
        refine ⟨distinct', fun is => record' ?_, fun is => artifact' (fileWas is), collecting'⟩
        rcases isSome_iff_exists.mp is with ⟨now, held⟩
        rw [diskWas now held]
        rfl
    · exact fun id' root stage' there' => absurd there' (noPrepare' id' root stage')
    · intro removed
      rcases removed' removed with was | ⟨disk₀, file₀⟩
      · rcases sound.gone was with ⟨-, disk₀, file₀, -⟩
        refine ⟨memory, ?_, ?_, noFiber, notCollecting, loaded⟩
        · show disk = none
          cases held : disk with
          | none => rfl
          | some now => exact nomatch disk₀.symm.trans (diskWas now held)
        · show file = none
          rw [← not_isSome_iff_eq_none]
          intro some'
          have some' := fileWas some'
          rw [file₀] at some'
          exact nomatch some'
      · exact ⟨memory, disk₀, file₀, noFiber, notCollecting, loaded⟩
    · intro loading
      exact nomatch loaded.symm.trans loading
  unfold SourceWorld.removing
  split
  · have diskNone : disk = none := by
      rw [← not_isSome_iff_eq_none]
      exact fun some' => nomatch record some'
    have fileNone : file = none := by
      rw [← not_isSome_iff_eq_none]
      exact fun some' => nomatch artifact some'
    refine kept (fun id' other => ?_) (.inr ⟨?_, diskNone, fileNone⟩) fun _ => .inr ⟨diskNone, fileNone⟩
    · rw [get_delete, if_neg other]
    · rw [get_delete, if_pos rfl]
  · refine kept (fun id' other => ?_) (.inl ?_) .inl
    · rw [get_set, if_neg other]
    · rw [get_set, if_pos rfl]

/-! ## Work in the lanes -/

variable {work : PackWork β}

theorem works_on (sound : world.Sound digest)
    (there : world.works.get packing = some work) {works : OrderedMap Nat (PackWork β)}
    (fewer : ∀ other, (works.get other).isSome = true → (world.works.get other).isSome = true)
    (collecting : ∀ other, works.get other = some .collecting → world.works.get other = some .collecting)
    (made : file.isSome = true → world.file.isSome = true ∨ work = .collecting)
    (written : (world.fibers.get packing).isSome = true →
      ∀ content, works.get packing = some (.writing content) → file = some ⟨packing, content⟩) :
    Sound digest { world with works, file } := by
  have under : (world.works.get packing).isSome = true := by
    rw [there]
    rfl
  cases is : world.fibers.get packing with
  | none =>
    refine sound.detached under is fewer collecting fun some' => ?_
    exact (made some').imp_right fun same => by rw [there, same]
  | some fiber =>
    have own : ∀ other, (works.get other).isSome = true → other = packing := by
      intro other work'
      exact sound.one other packing (.inr (fewer other work')) (.inr under)
    have stage : fiber.stage = .packing := by
      by_contra other
      exact nomatch (sound.unworked packing fiber is other packing).symm.trans there
    have goes := sound.goes is fiber works file own (absurd stage) (written (by rw [is]; rfl))
      (fun record saves => nomatch stage.symm.trans saves)
      (sound.running packing fiber is).2.2.2.1
    rw [set_eq_self is] at goes
    exact goes

theorem worked (sound : world.Sound digest) (there : world.works.get packing = some work)
    (file' : file = world.file ∨ file = none) {result : Option (List β)}
    (packed : ∀ content, result = some content → file = world.file ∧ work = .writing content) :
    (SourceWorld.worked digest { world with file } packing result).Sound digest := by
  have under : (world.works.get packing).isSome = true := by
    rw [there]
    rfl
  have still : ∀ other work', (world.works.delete packing).get other = some work' →
      other ≠ packing ∧ world.works.get other = some work' := by
    intro other work' is
    rw [get_delete] at is
    split at is
    · cases is
    · rename_i notSame
      exact ⟨fun same => notSame same.symm, is⟩
  have done : Sound digest { world with works := world.works.delete packing, file } := by
    refine sound.works_on there ?_ ?_ ?_ ?_
    · intro other some'
      rcases isSome_iff_exists.mp some' with ⟨work', is⟩
      rw [(still other work' is).2]
      rfl
    · exact fun other is => (still other _ is).2
    · intro some'
      rcases file' with same | none'
      · exact .inl (same ▸ some')
      · rw [none'] at some'
        exact nomatch some'
    · intro _ content is
      exact absurd rfl (still packing _ is).1
  unfold SourceWorld.worked
  dsimp only
  split
  · rename_i root is
    refine sound.goes is _ _ _ ?_ ?_ ?_ ?_ (sound.running packing _ is).2.2.2.1
    · intro other some'
      rcases isSome_iff_exists.mp some' with ⟨work', is'⟩
      exact sound.one other packing (.inr (by rw [(still other work' is').2]; rfl)) (.inr under)
    · intro _ other
      rw [← not_isSome_iff_eq_none]
      intro some'
      rcases isSome_iff_exists.mp some' with ⟨work', is'⟩
      refine (still other work' is').1 ?_
      exact sound.one other packing (.inr (by rw [(still other work' is').2]; rfl)) (.inr under)
    · intro content is'
      exact absurd rfl (still packing _ is').1
    intro record saves ready
    cases saves
    cases result with
    | none => cases ready
    | some content =>
      rcases packed content rfl with ⟨same, writes⟩
      rw [writes] at there
      exact ⟨_, same.trans (sound.written packing _ content is there), rfl, rfl⟩
  · exact done

/-- A fiber whose work isn't under way goes on to another await. -/
theorem toStage (sound : world.Sound digest) (is : world.fibers.get packing = some fiber)
    (waits : fiber.stage ≠ .packing) {stage : PackStage δ ρ}
    (saving : ∀ record, stage = .saving record → record.state ≠ .ready) :
    (world.toStage packing fiber stage).Sound digest := by
  have noWork := sound.unworked packing fiber is waits
  refine sound.goes is _ _ _ ?_ (fun _ => noWork) ?_ ?_ (sound.running packing fiber is).2.2.2.1
  · intro other work
    rw [noWork other] at work
    cases work
  · intro content work
    exact nomatch (noWork packing).symm.trans work
  · exact fun record saves ready => absurd ready (saving record saves)

/-- A packing gets its turn. -/
theorem granted (sound : world.Sound digest) {root : ρ} {interrupted : Bool}
    (is : world.fibers.get packing = some ⟨root, .queued, interrupted⟩) :
    (SourceWorld.toStage { world with works := world.works.set packing .collecting } packing
      ⟨root, .queued, interrupted⟩ .packing).Sound digest := by
  have noWork := sound.unworked packing _ is nofun
  have only : ∀ other work, (world.works.set packing .collecting).get other = some work →
      other = packing ∧ work = .collecting := by
    intro other work there
    rw [get_set] at there
    split at there
    · rename_i same
      exact ⟨same.symm, (Option.some.inj there).symm⟩
    · exact nomatch (noWork other).symm.trans there
  refine sound.goes is _ _ _ ?_ (fun other => absurd rfl other) ?_ nofun (sound.running packing _ is).2.2.2.1
  · intro other some'
    rcases isSome_iff_exists.mp some' with ⟨work, there⟩
    exact (only other work there).1
  · intro content there
    exact nomatch (only packing _ there).2

/-! ## A restart -/

/-- What a Relay finds as it starts. -/
theorem loads {nextPacking : Nat} {again removed : Bool} (ready : ∀ record, disk = some record → record.state = .ready →
      ∃ artifact, file = some artifact ∧ record.size = some artifact.content.length ∧
        record.sha256 = some (digest artifact.content))
    (gone : removed = true → disk = none ∧ file = none) :
    (SourceWorld.load { disk, file, nextPacking, again, removed }).Sound digest := by
  have fresh {memory : Option (SourceRecord δ ρ)} {loading : Bool} (memory' : memory = none ∨ memory = disk)
      (loading' : loading = true → memory = none ∧ ∃ record, disk = some record ∧ record.state = .packing) :
      Sound digest { memory, disk, file, nextPacking, loading, again, removed } := by
    have idle : ∀ packing, ¬ UnderWay { memory, disk, file, nextPacking, loading, again, removed } packing := by
      rintro packing (fiber | work)
      · cases fiber
      · cases work
    refine {
      one := fun packing _ under => absurd under (idle packing)
      running := fun _ _ is => (nomatch is)
      unworked := fun _ _ is => (nomatch is)
      written := fun _ _ _ is => (nomatch is)
      saving := fun _ _ _ is => (nomatch is)
      memoryReady := ?_
      diskReady := fun record held is => ⟨fun _ => rfl, .inl (ready record held is)⟩
      removal := fun _ _ there => (nomatch there)
      left := fun _ _ there => (nomatch there)
      preparing := fun _ _ _ there => (nomatch there)
      gone := ?_
      loading := fun is => ⟨fun _ => rfl, idle, loading' is⟩ }
    · intro record held is
      rcases memory' with none' | same
      · exact nomatch none'.symm.trans held
      · exact ⟨ready record (same.symm.trans held) is, fun _ => rfl⟩
    intro is
    rcases gone is with ⟨disk', file'⟩
    refine ⟨?_, disk', file', fun _ => rfl, fun _ => nofun, ?_⟩
    · exact memory'.elim id fun same => same.trans disk'
    · rw [← Bool.not_eq_true]
      intro loads
      rcases (loading' loads).2 with ⟨record, held, -⟩
      exact nomatch disk'.symm.trans held
  unfold SourceWorld.load
  dsimp only
  cases disk with
  | none => exact fresh (.inl rfl) nofun
  | some record =>
    dsimp only
    split
    · rename_i packing
      exact fresh (.inl rfl) fun _ => ⟨rfl, record, rfl, packing⟩
    · exact fresh (.inr rfl) nofun

theorem names_of_writes (sound : world.Sound digest) (writing : record ∈ world.writes) :
    world.removed = false ∧ (record.state = .ready → world.Names digest record) := by
  unfold SourceWorld.writes at writing
  rcases List.mem_append.mp writing with writing | loading
  · rcases List.mem_append.mp writing with call | fiber
    · rcases List.mem_filterMap.mp call with ⟨⟨id, call'⟩, member, is⟩
      have there := get_eq_some.mpr member
      dsimp only at is
      split at is
      · rename_i root
        cases is
        exact ⟨(sound.preparing id root _ there).2.2.1, nofun⟩
      · cases is
    · rcases List.mem_filterMap.mp fiber with ⟨⟨packing, fiber'⟩, member, is⟩
      have there := get_eq_some.mpr member
      dsimp only at is
      split at is
      · rename_i record' saves
        cases is
        exact ⟨(sound.running packing fiber' there).2.2.2.2.1, sound.saving packing fiber' _ there saves⟩
      · cases is
  · split at loading
    · rename_i is
      rcases (sound.loading is).2.2.2 with ⟨found, held, -⟩
      rw [held] at loading
      obtain rfl := List.mem_singleton.mp loading
      refine ⟨?_, nofun⟩
      rw [← Bool.not_eq_true]
      intro removed
      exact nomatch (sound.gone removed).2.1.symm.trans held
    · cases loading

theorem restarts [DecidableEq δ] [DecidableEq ρ] (sound : world.Sound digest)
    {landed : Option (SourceRecord δ ρ)} (apart : world.Apart (.restart landed : SourceEvent β δ ρ))
    (writing : landed.all (· ∈ world.writes) = true) :
    (SourceWorld.load {
      disk := landed.or world.disk
      file := world.file
      nextPacking := world.nextPacking
      again := world.again
      removed := world.removed : SourceWorld β δ ρ }).Sound digest := by
  apply loads
  · intro record held ready
    rcases or_eq_some_iff.mp held with new | ⟨-, old⟩
    · rw [new, all_some, decide_eq_true_eq] at writing
      exact (sound.names_of_writes writing).2 ready
    · rcases (sound.diskReady record old ready).2 with names | ⟨id, left, there, less⟩
      · exact names
      · have whole := List.all_eq_true.mp apart (id, _) (get_eq_some.mp there)
        have listed := (sound.left id left there).2.1 (by rw [old]; rfl)
        simp [HalfRemoved, listed, less, old, ready] at whole
  · intro removed
    rcases sound.gone removed with ⟨-, disk, file, -⟩
    refine ⟨?_, file⟩
    cases landed with
    | none => exact disk
    | some record =>
      rw [all_some, decide_eq_true_eq] at writing
      exact nomatch (sound.names_of_writes writing).1.symm.trans removed

theorem loaded (sound : world.Sound digest) (loading : world.loading = true) (state : record.state ≠ .ready) :
    Sound digest { world with disk := some record, memory := some record, loading := false } := by
  rcases sound.loading loading with ⟨noCall, idle, -, found, held, -⟩
  refine { sound with
    running := ?_, memoryReady := ?_, diskReady := ?_, removal := ?_, left := ?_, preparing := ?_,
    gone := ?_, loading := nofun }
  · intro packing fiber is
    exact nomatch (noFiber_of_idle idle packing).symm.trans is
  · intro now held ready
    cases held
    exact absurd ready state
  · intro now held ready
    cases held
    exact absurd ready state
  · intro id stage there
    exact nomatch (noCall id).symm.trans there
  · intro id left there
    exact nomatch (noCall id).symm.trans there
  · intro id root stage there
    exact nomatch (noCall id).symm.trans there
  · intro removed
    exact nomatch (sound.gone removed).2.1.symm.trans held

/-! ## A step -/

variable {after : SourceWorld β δ ρ}

theorem saved [DecidableEq δ] [DecidableEq ρ] (sound : world.Sound digest) {ok : Bool}
    (step : world.next digest (.saved packing ok) = some after) :
    after.Sound digest := by
  unfold SourceWorld.next at step
  dsimp only at step
  split at step
  · rename_i root record interrupted is
    have noWork := sound.unworked packing _ is nofun
    have names : record.state = .ready → world.Names digest record :=
      sound.saving packing _ record is rfl
    have written (now : SourceRecord δ ρ) (held : some record = some now) (ready : now.state = .ready) :
        world.Names digest now ∧ ∀ other, world.works.get other = none := by
      cases held
      exact ⟨names ready, noWork⟩
    cases step
    split
    · split
      · exact sound.ends is sound.memoryReady written
      · exact sound.ends is written written
    split
    · exact sound.toStage is nofun fun _ same => by
        cases same
        nofun
    · refine sound.ends is sound.memoryReady fun now held ready => ?_
      rcases (sound.running packing _ is).2.2.1 with ⟨found, held', state⟩
      cases held'.symm.trans held
      exact nomatch state.symm.trans ready
  · cases step

theorem unwound [DecidableEq δ] [DecidableEq ρ] (sound : world.Sound digest)
    (step : world.next digest (.unwound packing) = some after) :
    after.Sound digest := by
  have finished {fiber : PackFiber δ ρ} (is : world.fibers.get packing = some fiber) :
      (world.ended packing).Sound digest := by
    refine sound.ends is sound.memoryReady fun now held ready => ?_
    rcases (sound.running packing _ is).2.2.1 with ⟨found, held', state⟩
    cases held'.symm.trans held
    exact nomatch state.symm.trans ready
  unfold SourceWorld.next at step
  dsimp only at step
  split at step
  · cases step
  · cases step
  · cases step
  · rename_i is
    cases step
    exact finished is

theorem chunk (sound : world.Sound digest) {content bytes : List β}
    (there : world.works.get packing = some (.writing content)) :
    Sound digest { world with
      works := world.works.set packing (.writing (content ++ bytes))
      file := world.file.map fun artifact =>
        if artifact.maker = packing then { artifact with content := artifact.content ++ bytes }
        else artifact } := by
  refine sound.works_on there ?_ ?_ (fun is => .inl (by rwa [isSome_map] at is)) ?_
  · intro other is
    rw [get_set] at is
    split at is
    · rename_i same
      rw [← same, there]
      rfl
    · exact is
  · intro other is
    rw [get_set] at is
    split at is
    · cases is
    · exact is
  · intro fiber content' is
    rw [get_set, if_pos rfl] at is
    cases is
    rcases isSome_iff_exists.mp fiber with ⟨fiber', is'⟩
    rw [sound.written packing fiber' content is' there, map_some, if_pos rfl]

/-- Work changes what it does, and no file. -/
theorem setWork (sound : world.Sound digest) (there : world.works.get packing = some work) :
    Sound digest { world with works := world.works.set packing .cleaning } := by
  refine sound.works_on there ?_ ?_ .inl ?_
  · intro other is
    rw [get_set] at is
    split at is
    · rename_i same
      rw [← same, there]
      rfl
    · exact is
  · intro other is
    rw [get_set] at is
    split at is
    · cases is
    · exact is
  · intro _ content is
    rw [get_set, if_pos rfl] at is
    cases is

theorem opened (sound : world.Sound digest) (there : world.works.get packing = some .collecting) :
    Sound digest { world with
      works := world.works.set packing (.writing [])
      file := some ⟨packing, []⟩ } := by
  refine sound.works_on there ?_ ?_ (fun _ => .inr rfl) ?_
  · intro other is
    rw [get_set] at is
    split at is
    · rename_i same
      rw [← same, there]
      rfl
    · exact is
  · intro other is
    rw [get_set] at is
    split at is
    · cases is
    · exact is
  · intro _ content is
    rw [get_set, if_pos rfl] at is
    cases is
    rfl

theorem next [DecidableEq δ] [DecidableEq ρ] (sound : world.Sound digest)
    {event : SourceEvent β δ ρ} (apart : world.Apart event)
    (step : world.next digest event = some after) : after.Sound digest := by
  unfold SourceWorld.next at step
  cases event with
  | prepare id root =>
    dsimp only at step
    split at step
    · cases step
    rename_i free
    rw [Bool.or_eq_true, not_or, Bool.not_eq_true] at free
    split at step
    · cases step
      exact sound
    rename_i held
    cases step
    have apart' : world.calls.entries = [] ∧ world.fibers.entries = [] ∧ world.works.entries = [] := by
      refine apart.resolve_left fun some' => ?_
      rw [held] at some'
      cases some'
    have idle : ∀ packing, ¬ world.UnderWay packing := by
      rintro packing (fiber | work)
      · rw [OrderedMap.get, apart'.2.1] at fiber
        cases fiber
      · rw [OrderedMap.get, apart'.2.2] at work
        cases work
    have noCall : ∀ id', world.calls.get id' = none := by
      intro id'
      rw [OrderedMap.get, apart'.1]
      rfl
    refine sound.prepares free.1 held idle id (world.calls.set id (.prepare root .making)) true ?_ ?_
    · intro id' call there
      cases (noCall id').symm.trans there
    intro id' call there
    rw [OrderedMap.get_set] at there
    split at there
    · rename_i same
      exact ⟨same.symm, root, .making, (Option.some.inj there).symm⟩
    · cases (noCall id').symm.trans there
  | made id =>
    dsimp only at step
    split at step
    · rename_i root there
      cases step
      rcases sound.preparing id root _ there with ⟨loaded, held, notRemoved, idle, alone⟩
      have prepares := sound.prepares loaded held idle id (world.calls.set id (.prepare root .saving)) world.again ?_ ?_
      · rw [← notRemoved] at prepares
        exact prepares
      · intro id' call there'
        obtain rfl := alone id' call there'
        exact ⟨rfl, root, .making, Option.some.inj (there'.symm.trans there)⟩
      intro id' call there'
      rw [OrderedMap.get_set] at there'
      split at there'
      · rename_i same
        exact ⟨same.symm, root, .saving, (Option.some.inj there').symm⟩
      · rename_i other
        exact absurd (alone id' call there').symm other
    · cases step
  | prepared id ok =>
    dsimp only at step
    split at step
    · rename_i root there
      cases step
      split
      · exact sound.forks there
      rcases sound.preparing id root _ there with ⟨loaded, held, notRemoved, idle, alone⟩
      have prepares := sound.prepares loaded held idle id (world.calls.delete id) world.again ?_ ?_
      · rw [← notRemoved] at prepares
        exact prepares
      · intro id' call there'
        obtain rfl := alone id' call there'
        exact ⟨rfl, root, .saving, Option.some.inj (there'.symm.trans there)⟩
      intro id' call there'
      rw [OrderedMap.get_delete] at there'
      split at there'
      · cases there'
      · rename_i other
        exact absurd (alone id' call there').symm other
    · cases step
  | discard id root =>
    dsimp only at step
    split at step
    · cases step
    rename_i free
    rw [Bool.or_eq_true, not_or, Bool.not_eq_true, OrderedMap.has, Bool.not_eq_true,
      isSome_eq_false_iff, isNone_iff_eq_none] at free
    split at step
    · rename_i record held
      cases step
      split
      · exact sound.removes free.1 held free.2
      · exact sound
    · cases step
      exact sound
  | sweep id =>
    dsimp only at step
    split at step
    · cases step
    rename_i free
    rw [Bool.or_eq_true, not_or, Bool.not_eq_true, OrderedMap.has, Bool.not_eq_true,
      isSome_eq_false_iff, isNone_iff_eq_none] at free
    split at step
    · rename_i held
      cases step
      exact sound.removes free.1 held free.2
    · cases step
      exact sound
  | interrupted id =>
    dsimp only at step
    split at step
    · rename_i packing there
      split at step
      · cases step
      rename_i finished
      cases step
      rcases sound.removal id _ there with ⟨loaded, noPrepare, -⟩
      refine sound.forgets loaded (fun other => ?_) noPrepare ?_
      · cases is : world.fibers.get other with
        | none => rfl
        | some fiber =>
          have same := (sound.running other fiber is).2.2.2.1 id _ there
          cases same
          rw [is] at finished
          exact absurd rfl finished
      · intro left there'
        cases there.symm.trans there'
    · cases step
  | listed id names =>
    dsimp only at step
    split at step
    · rename_i there
      split at step
      · rename_i lists
        cases step
        refine sound.removing there (by rintro _ ⟨⟩) lists.1 lists.2.1.mpr lists.2.2.mpr ?_ (.inl rfl) (.inl rfl)
          (by rintro _ ⟨⟩)
        intro packing collecting
        have all := List.all_eq_true.mp apart (packing, _) (OrderedMap.get_eq_some.mp collecting)
        cases all
      · cases step
    · cases step
  | removed id =>
    dsimp only at step
    split at step
    · rename_i name left there
      cases step
      rcases sound.left id _ there with ⟨distinct, record, artifact, notCollecting⟩
      rw [List.nodup_cons] at distinct
      have less : ∀ before, RemoveStage.removing (name :: left) = .removing before →
          SourceFile.artifact ∉ before → SourceFile.artifact ∉ left := by
        rintro before ⟨⟩ less listed
        exact less (List.mem_cons_of_mem _ listed)
      cases name with
      | record =>
        refine sound.removing there (by rintro _ ⟨⟩) distinct.2 (by rintro ⟨⟩) (fun is => ?_) notCollecting
          (.inr rfl) (.inl rfl) less
        exact (List.mem_cons.mp (artifact is)).resolve_left (by rintro ⟨⟩)
      | artifact =>
        refine sound.removing there (by rintro _ ⟨⟩) distinct.2 (fun is => ?_) (by rintro ⟨⟩) notCollecting
          (.inl rfl) (.inr ⟨rfl, distinct.1⟩) less
        exact (List.mem_cons.mp (record is)).resolve_left (by rintro ⟨⟩)
    · cases step
  | resolved packing found =>
    dsimp only at step
    split at step
    · rename_i root is
      cases step
      refine sound.toStage is (by rintro ⟨⟩) fun record saves => ?_
      cases found
      · cases saves
        rintro ⟨⟩
      · cases saves
    · cases step
  | granted packing =>
    dsimp only at step
    split at step
    · rename_i is
      cases step
      exact sound.granted is
    · cases step
  | refused packing =>
    dsimp only at step
    split at step
    · rename_i root is
      cases step
      refine sound.toStage is (by rintro ⟨⟩) fun record saves => ?_
      cases saves
      rintro ⟨⟩
    · cases step
  | uncollected packing =>
    dsimp only at step
    split at step
    · rename_i there
      cases step
      exact sound.worked there (.inl rfl) (by rintro _ ⟨⟩)
    · cases step
  | opened packing =>
    dsimp only at step
    split at step
    · rename_i there
      cases step
      split
      · exact sound.opened there
      · exact sound.setWork there
    · cases step
  | chunk packing bytes =>
    dsimp only at step
    split at step
    · rename_i content there
      cases step
      exact sound.chunk there
    · cases step
  | broke packing =>
    dsimp only at step
    split at step
    · rename_i there
      cases step
      exact sound.setWork there
    · rename_i content there
      cases step
      exact sound.setWork there
    · cases step
  | cleaned packing =>
    dsimp only at step
    split at step
    · rename_i there
      cases step
      exact sound.worked there (.inr rfl) (by rintro _ ⟨⟩)
    · cases step
  | packed packing =>
    dsimp only at step
    split at step
    · rename_i content there
      cases step
      refine sound.worked there (.inl rfl) fun content' same => ⟨rfl, ?_⟩
      rw [Option.some.inj same]
    · cases step
  | saved packing ok => exact sound.saved step
  | unwound packing => exact sound.unwound step
  | restart landed =>
    dsimp only at step
    split at step
    · rename_i writing
      cases step
      exact sound.restarts apart writing
    · cases step
  | loaded =>
    dsimp only at step
    split at step
    · rename_i loading _
      cases step
      exact sound.loaded loading (by rintro ⟨⟩)
    · cases step

theorem upholds (sound : world.Sound digest) : world.Upholds digest where
  one := sound.one
  ready := by
    intro record ready
    rintro (memory | ⟨disk, whole⟩)
    · exact (sound.memoryReady record memory ready).1
    · rcases (sound.diskReady record disk ready).2 with names | ⟨id, left, there, -⟩
      · exact names
      · exact absurd there (whole id left)
  gone removed _ := ⟨(sound.gone removed).1, (sound.gone removed).2.1, (sound.gone removed).2.2.1⟩

end Sound

end SourceWorld

/-- In every run whose prepares and removals keep apart a transfer has one whole artifact. -/
theorem sources_kept_apart [DecidableEq δ] [DecidableEq ρ] (digest : List β → δ)
    {world : SourceWorld β δ ρ}
    (reachable : ((sourceSystem digest).restrict SourceWorld.Apart).Reachable world) :
    world.Upholds digest := by
  refine SourceWorld.Sound.upholds (reachable.invariant (I := SourceWorld.Sound digest) ?_ ?_)
  · rintro world rfl
    show (SourceWorld.load ({} : SourceWorld β δ ρ)).Sound digest
    exact SourceWorld.Sound.loads (fun _ held => nomatch held) nofun
  · exact fun world event after sound step => sound.next step.1 step.2

/-! ## Two prepares of one transfer -/

/-- The length, for a digest. -/
def contentLength (content : List Nat) : Nat := content.length

/-- A prepare packs, and its artifact is ready. -/
def packSource : List (SourceEvent Nat Nat Unit) :=
  [.prepare 0 (), .made 0, .prepared 0 true, .resolved 0 true, .granted 0, .opened 0, .chunk 0 [7],
    .packed 0, .saved 0 true]

theorem sources_kept_apart_packed :
    ((runAll (fun world event => if world.Apart event then world.next contentLength event else none)
      ({} : SourceWorld Nat Nat Unit) packSource).map fun world => world.memory) =
        some (some (.ready () 1 1)) ∧
    ∀ world, runAll (fun world event => if world.Apart event then world.next contentLength event else none)
      ({} : SourceWorld Nat Nat Unit) packSource = some world → world.Upholds contentLength :=
  ⟨by decide, fun _ ran => sources_kept_apart contentLength ⟨_, _, rfl, System.run_of_guardedRunAll ran⟩⟩

/-- Two prepares find no record and pack. The second finds the first's file, fails and removes it. -/
def packTwice : List (SourceEvent Nat Nat Unit) :=
  [.prepare 0 (), .prepare 1 (), .made 0, .made 1, .prepared 0 true, .prepared 1 true, .resolved 0 true,
    .resolved 1 true, .granted 0, .granted 1, .opened 0, .chunk 0 [7], .opened 1, .packed 0, .cleaned 1,
    .saved 0 true]

theorem packTwice_ready : (runAll (SourceWorld.next contentLength) ({} : SourceWorld Nat Nat Unit)
    packTwice).any (fun world =>
      world.memory = some (.ready () 1 1) && world.file.isNone) = true := by
  decide

theorem names_no_artifact : ¬ ∀ (digest : List Nat → Nat) (world : SourceWorld Nat Nat Unit),
    (sourceSystem digest).Reachable world → world.Upholds digest := by
  intro all
  have ready := packTwice_ready
  rw [Option.any_eq_true] at ready
  rcases ready with ⟨world, ran, both⟩
  rw [Bool.and_eq_true, decide_eq_true_eq, Option.isNone_iff_eq_none] at both
  have upholds := all contentLength world ⟨{}, packTwice, rfl, System.run_of_runAll ran⟩
  rcases upholds.ready _ rfl (.inl both.1) with ⟨artifact, file, -⟩
  exact nomatch both.2.symm.trans file

end Kiln.Relay
