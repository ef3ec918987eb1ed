import Kiln.Relay.TransferPulls

/-!
# What holds of a pull whose calls keep apart

The invariant of `TransferPulls` (`apps/relay/src/transfers/peer/pulls.ts`) where no start and cancel of a
transfer overlap that could both change it, no start stores its record while the pull is installing, and
no cancel finds the pull cancelled before the disk has it so.

A fiber that is about to end may still wait for its last save when a start stores a new record: the
start's own save takes its turn after it, so the fiber has ended before the start looks for one.
-/

namespace Kiln.Relay
open Kiln.Lib List

variable {β δ τ : Type}

def PullCall.isStart : PullCall δ τ → Bool
  | .start _ _ => true
  | .cancel _ => false

/-- Whether a call awaits a save. -/
def PullCall.saves : PullCall δ τ → Bool
  | .start _ .saving | .cancel .saving => true
  | _ => false

/-- Whether a cancel has yet to write down that it is one. -/
def PullCall.midCancel : PullCall δ τ → Bool
  | .cancel .saving => false
  | .cancel _ => true
  | .start _ _ => false

def PullSaver.isCall : PullSaver → Bool
  | .call _ => true
  | _ => false

/-- Whether a call's save takes its turn after the fiber's. -/
def overtaken (queue : List PullSaver) : Bool :=
  (queue.dropWhile (· ≠ .fiber)).any PullSaver.isCall

def PullStage.saves : PullStage → Bool
  | .noting _ | .answering _ | .counting | .retrying | .verifying | .marking | .completing
  | .failing => true
  | _ => false

/-- The fiber ends once it is saved. -/
def PullStage.ending : PullStage → Bool
  | .completing | .failing => true
  | _ => false

def PullRun.saves : PullRun δ τ → Bool
  | .begun => false
  | .going _ stage => stage.saves

def PullRun.ending : PullRun δ τ → Bool
  | .begun => false
  | .going _ stage => stage.ending

/-- The states a record may have while a fiber is at a stage. -/
def PullStage.Stands : PullStage → PullState → Prop
  | .failing, state => state = .failed
  | .completing, state => state = .completed
  | .marking, state | .resolving, state | .installing, state | .clearing, state => state = .installing
  | _, state => state = .pulling ∨ state = .verifying

def PullRun.Stands : PullRun δ τ → PullState → Prop
  | .begun, state => state = .pulling ∨ state = .verifying
  | .going _ stage, state => stage.Stands state

/-- The same, where a start may have stored its record over that of a fiber that is about to end. -/
def PullRun.Fits (run : PullRun δ τ) (overtaken : Bool) (state : PullState) : Prop :=
  if run.ending && overtaken then state = .pulling else run.Stands state

/-- How many bytes the part has while a fiber is at a stage. -/
def PullStage.offset : PullStage → Option Nat
  | .noting offset | .requesting offset | .answering offset | .appending offset => some offset
  | _ => none

/-- The part was hashed. -/
def PullStage.hashed : PullStage → Bool
  | .marking | .resolving | .installing => true
  | _ => false

/-! ## Records under a fiber -/

variable {run : PullRun δ τ} {state : PullState}

theorem PullRun.fits_of_not_ending (goes : run.ending = false) {overtaken : Bool} :
    run.Fits overtaken state ↔ run.Stands state := by
  unfold Fits
  rw [goes]
  rfl

theorem PullRun.fits_of_not_overtaken : run.Fits false state ↔ run.Stands state := by
  unfold Fits
  rw [Bool.and_false]
  rfl

theorem PullRun.ne_cancelled_of_fits {overtaken : Bool} (fits : run.Fits overtaken state) : state ≠ .cancelled := by
  rintro rfl
  unfold Fits at fits
  split at fits
  · cases fits
  · cases run with
    | begun => rcases fits with is | is <;> exact nomatch is
    | going record stage =>
      cases stage <;> simp [Stands, PullStage.Stands] at fits

/-- A start may store its record under a fiber whose pull isn't installing. -/
theorem PullRun.stands_pulling (goes : run.ending = false) (stands : run.Stands state)
    (notInstalling : state ≠ .installing) : run.Stands .pulling := by
  cases run with
  | begun => exact .inl rfl
  | going record stage =>
    cases stage <;> first | exact .inl rfl | exact absurd stands notInstalling | exact nomatch goes

theorem PullRun.saves_of_ending (ending : run.ending = true) : run.saves = true := by
  cases run with
  | begun => cases ending
  | going record stage => cases stage <;> first | rfl | exact nomatch ending

theorem PullRun.not_active_of_ending (ending : run.ending = true) (stands : run.Stands state) :
    state.active = false := by
  cases run with
  | begun => cases ending
  | going record stage =>
    cases stage <;> first
      | exact congrArg PullState.active stands
      | exact nomatch ending

theorem overtaken_cons {saver : PullSaver} (other : saver ≠ .fiber) (queue : List PullSaver) :
    overtaken (saver :: queue) = overtaken queue := by
  unfold overtaken
  rw [dropWhile_cons_of_pos (by simpa using other)]

theorem overtaken_fiber (queue : List PullSaver) : overtaken (.fiber :: queue) = queue.any PullSaver.isCall := by
  unfold overtaken
  rw [dropWhile_cons_of_neg (by simp)]
  rfl

theorem overtaken_append {queue : List PullSaver} (waits : .fiber ∈ queue) (more : List PullSaver) :
    overtaken (queue ++ more) = (overtaken queue || more.any PullSaver.isCall) := by
  induction queue with
  | nil => cases waits
  | cons saver queue ih =>
    by_cases is : saver = .fiber
    · rw [is, cons_append, overtaken_fiber, overtaken_fiber, any_append]
    · rw [cons_append, overtaken_cons is, overtaken_cons is]
      exact ih ((mem_cons.mp waits).resolve_left fun same => is same.symm)

theorem overtaken_append_of_not_mem {queue : List PullSaver} (none' : .fiber ∉ queue)
    (more : List PullSaver) : overtaken (queue ++ more) = overtaken more := by
  induction queue with
  | nil => rfl
  | cons saver queue ih =>
    rw [mem_cons, not_or] at none'
    rw [cons_append, overtaken_cons fun same => none'.1 same.symm]
    exact ih none'.2

namespace PullWorld

/-- How many saves the fiber waits for. -/
def fiberSaves (world : PullWorld β δ τ) : Nat :=
  match world.fiber with
  | some fiber => if fiber.run.saves then 1 else 0
  | none => 0

theorem fiberSaves_le_one (world : PullWorld β δ τ) : world.fiberSaves ≤ 1 := by
  unfold fiberSaves
  split
  · split <;> omega
  · omega

/-- The saves whose turn is yet to come. -/
def waiting (world : PullWorld β δ τ) : List PullSaver :=
  if world.writing.isSome then world.saving.tail else world.saving

def NoMidCancel (world : PullWorld β δ τ) : Prop :=
  ∀ id call, world.calls.get id = some call → call.midCancel = false

/-- What holds of a transfer. `popped` are the saves that are done but not gone on from. -/
structure Sound (digest : List β → δ) (popped : List PullSaver) (world : PullWorld β δ τ) : Prop where
  apart : ∀ id input stage id' stage', world.calls.get id = some (.start input stage) →
    world.calls.get id' ≠ some (.cancel stage')
  fiberToken : (popped ++ world.saving).count .fiber = world.fiberSaves
  callTokens : ∀ id, (popped ++ world.saving).count (.call id) =
    if ((world.calls.get id).map PullCall.saves).getD false then 1 else 0
  loading : world.loading = true → popped ++ world.saving = [.load] ∧ world.fiber = none ∧
    world.calls = .empty ∧ ∃ record, world.memory = some record ∧ record.state = .failed
  loaded : world.loading = false → .load ∉ popped ++ world.saving
  turn : world.writing.isSome = true → world.saving ≠ [] ∧ world.memory.isSome = true
  stands : ∀ fiber, world.fiber = some fiber → ∃ record, world.memory = some record ∧
    fiber.run.Fits (overtaken (popped ++ world.saving)) record.state
  starting : world.fiber = none → ∀ id input, world.calls.get id = some (.start input .saving) →
    ∃ record, world.memory = some record ∧ record.state = .pulling
  idle : world.fiber = none → ∀ record, world.memory = some record → record.state.active = true →
    (∃ id input, world.calls.get id = some (.start input .saving)) ∨
      ∃ id call, world.calls.get id = some call ∧ call.midCancel = true
  interrupted : ∀ fiber, world.fiber = some fiber → fiber.interrupted = true →
    ∃ id, world.calls.get id = some (.cancel (.interrupting fiber.id))
  cancelling : ∀ id stage, world.calls.get id = some (.cancel stage) → world.memory.isSome = true ∧
      ∀ fiber, world.fiber = some fiber → stage = .interrupting fiber.id ∧ fiber.interrupted = true
  cancelled : ∀ id, world.calls.get id = some (.cancel .saving) →
    ∃ record, world.memory = some record ∧ record.state = .cancelled
  cancelledWrite : ∀ id, world.calls.get id = some (.cancel .saving) →
    (world.saving.head? = some (.call id) → ∀ record, world.writing = some record → record.state = .cancelled) ∧
    (.call id ∈ popped → ∀ record, world.disk = some record → record.state = .cancelled)
  works : ∀ work ∈ world.works, ∃ fiber record, world.fiber = some fiber ∧ fiber.id = work.fiber ∧
    fiber.run = .going record .installing ∧ fiber.interrupted = false ∧
    work.sha256 = record.sha256 ∧
    ∀ content, work.reading = some (some content) → digest content = work.sha256
  hashed : ∀ fiber record stage, world.fiber = some fiber → fiber.run = .going record stage →
    stage.hashed = true → ∃ content, world.part = some content ∧ digest content = record.sha256
  offset : ∀ fiber record stage offset, world.fiber = some fiber →
    fiber.run = .going record stage → stage.offset = some offset → world.partSize = offset
  written : (∀ saver ∈ world.waiting, saver = .progress) → world.NoMidCancel → ∀ record, world.writing = some record →
      ∃ current, world.memory = some current ∧ record.state = current.state
  landed : (∀ saver ∈ world.saving, saver = .progress) → world.NoMidCancel →
    world.disk.map PullRecord.state = world.memory.map PullRecord.state
  quiet : world.quiet = true → world.fiber = none ∧ (∀ id call, world.calls.get id = some call → call.isStart = false) ∧
    (∀ record, world.memory = some record ∨ world.disk = some record ∨
      world.writing = some record → record.state = .cancelled)
  installed : ∀ install ∈ world.installed, digest install.content = install.sha256 ∧ install.quiet = false

/-- A condition on a step. A start or cancel that could change the pull doesn't begin beside one of the other kind that
could; a cancel doesn't find the pull cancelled before the disk has it so; and no start stores its record while the pull
is installing. -/
def Apart (world : PullWorld β δ τ) : PullEvent β δ τ → Prop
  | .start _ _ => world.calls.entries.all (fun entry => entry.2.isStart) = true ∨
      world.memory.any (fun record => !record.state.startable) = true
  | .cancel _ =>
      (world.calls.entries.all (fun entry => !entry.2.isStart) = true ∧
        (world.memory.any (fun record => record.state = .cancelled) = true →
          world.disk.all (fun record => record.state = .cancelled) = true ∧
          world.writing.all (fun record => record.state = .cancelled) = true)) ∨
      world.memory.all (fun record => record.state = .installing || record.state = .completed) = true
  | .made _ => world.memory.all (fun record => record.state ≠ .installing) = true
  | _ => True

instance (world : PullWorld β δ τ) (event : PullEvent β δ τ) : Decidable (world.Apart event) := by
  cases event <;> unfold Apart <;> infer_instance

variable {digest : List β → δ} {popped : List PullSaver} {world : PullWorld β δ τ}

theorem all_calls {p : PullCall δ τ → Bool}
    (all : world.calls.entries.all (fun entry => p entry.2) = true) {id : Nat} {call : PullCall δ τ}
    (there : world.calls.get id = some call) : p call = true :=
  all_eq_true.mp all (id, call) (OrderedMap.get_eq_some.mp there)

namespace Sound

variable {id : Nat}

theorem isLoaded (sound : world.Sound digest popped) {call : PullCall δ τ}
    (there : world.calls.get id = some call) : world.loading = false := by
  rw [← Bool.not_eq_true]
  intro loading
  rw [(sound.loading loading).2.2.1] at there
  cases there

theorem starts (sound : world.Sound digest popped) {input : PullStart δ τ} {stage : StartStage}
    (there : world.calls.get id = some (.start input stage)) (id' : Nat) (call : PullCall δ τ)
    (there' : world.calls.get id' = some call) : call.isStart = true := by
  cases call with
  | start _ _ => rfl
  | cancel stage' => exact absurd there' (sound.apart id input stage id' stage' there)

theorem notQuiet (sound : world.Sound digest popped) {input : PullStart δ τ} {stage : StartStage}
    (there : world.calls.get id = some (.start input stage)) :
    world.quiet = false := by
  rw [← Bool.not_eq_true]
  intro quiet
  exact Bool.noConfusion ((sound.quiet quiet).2.1 id _ there)

variable {fiber : PullFiber δ τ}

theorem notQuiet_of_fiber (sound : world.Sound digest popped) (is : world.fiber = some fiber) :
    world.quiet = false := by
  rw [← Bool.not_eq_true]
  intro quiet
  rw [(sound.quiet quiet).1] at is
  cases is

theorem isLoaded_of_fiber (sound : world.Sound digest popped) (is : world.fiber = some fiber) :
    world.loading = false := by
  rw [← Bool.not_eq_true]
  intro loading
  rw [(sound.loading loading).2.1] at is
  cases is

theorem waits (sound : world.Sound digest popped) (is : world.fiber = some fiber) (saves : fiber.run.saves = true) :
    PullSaver.fiber ∈ popped ++ world.saving := by
  have token := sound.fiberToken
  unfold fiberSaves at token
  rw [is] at token
  simp only [saves, if_true] at token
  exact count_pos_iff.mp (by omega)

theorem notWaits (sound : world.Sound digest popped) (is : world.fiber = some fiber) (saves : fiber.run.saves = false) :
    PullSaver.fiber ∉ popped ++ world.saving := by
  have token := sound.fiberToken
  unfold fiberSaves at token
  rw [is] at token
  simp only [saves, Bool.false_eq_true, if_false] at token
  exact count_eq_zero.mp token

theorem callWaits (sound : world.Sound digest popped) :
    PullSaver.call id ∈ popped ++ world.saving ↔ ∃ call, world.calls.get id = some call ∧ call.saves = true := by
  rw [← count_pos_iff, sound.callTokens]
  cases world.calls.get id with
  | none => simp
  | some call => cases saves : call.saves <;> simp [saves]

theorem noCancel (sound : world.Sound digest popped) (is : world.fiber = some fiber)
    (free : fiber.interrupted = false) (id : Nat) (stage : CancelStage) :
    world.calls.get id ≠ some (.cancel stage) := by
  intro there
  rw [((sound.cancelling id stage there).2 fiber is).2] at free
  cases free

theorem noMidCancel (sound : world.Sound digest popped) (is : world.fiber = some fiber)
    (free : fiber.interrupted = false) : world.NoMidCancel := by
  intro id call there
  cases call with
  | start _ _ => rfl
  | cancel stage => exact absurd there (sound.noCancel is free id stage)

/-- A fiber that isn't installing has nothing in the lanes. -/
theorem noWorks (sound : world.Sound digest popped)
    (other : ∀ fiber record, world.fiber = some fiber → fiber.run ≠ .going record .installing) :
    world.works = [] := by
  rw [eq_nil_iff_forall_not_mem]
  intro work member
  rcases sound.works work member with ⟨fiber, record, is, -, run, -⟩
  exact other fiber record is run

end Sound

theorem mem_waiting_of_last {world : PullWorld β δ τ} (saver : PullSaver)
    (turn : world.writing.isSome = true → world.saving ≠ []) :
    saver ∈ waiting { world with saving := world.saving ++ [saver] } := by
  unfold waiting
  split
  · rename_i writes
    show saver ∈ (world.saving ++ [saver]).tail
    rw [tail_append_of_ne_nil (turn writes)]
    exact mem_append_right _ mem_cons_self
  · exact mem_append_right _ mem_cons_self

end PullWorld

end Kiln.Relay
