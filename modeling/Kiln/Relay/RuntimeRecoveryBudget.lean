import Kiln.Relay.RuntimeRecovery

/-!
# The budget of recovery

What `#reconcileObservation` makes of a record (`apps/relay/src/runtime-recovery.ts:208-430`, `:802-887`) is one
of a few moves: only an exit or a failed start uses an attempt, and each allows for one start. So the starts
since the attempts last started over never pass the attempts, whatever is observed in whatever order.
-/

namespace Kiln.Relay
open Kiln.Lib OrderedMap Option

/-! ## What an observation makes of a record -/

/-- What is made of a record, in attempts and phases. -/
inductive RecoveryMove (config : RecoveryConfig) (observation : RecoveryObservation) :
    Option RecoveryRecord → RecoveryChange → Prop
  | kept {existing record : RecoveryRecord} {stop : Bool} (attempts : record.attempts = existing.attempts)
      (phase : record.phase = existing.phase) :
      RecoveryMove config observation (some existing) { record := some record, stop }
  | startsOver {existing record : RecoveryRecord} {stop : Bool} (attempts : record.attempts = 0)
      (phase : record.phase = .idle) :
      RecoveryMove config observation (some existing) { record := some record, stop, reset := true }
  | settles {existing record : RecoveryRecord} (attempts : record.attempts = existing.attempts)
      (phase : record.phase = .idle ∨ record.phase = .monitoring) :
      RecoveryMove config observation (some existing) { record := some record }
  | runs {existing record : RecoveryRecord} (attempts : record.attempts = existing.attempts)
      (before : existing.phase = .failed ∨ existing.phase = .pending) (phase : record.phase = .restarting) :
      RecoveryMove config observation (some existing) { record := some record }
  | requests {existing record : RecoveryRecord} (attempts : record.attempts = existing.attempts)
      (before : existing.phase = .pending) (phase : record.phase = .restarting) :
      RecoveryMove config observation (some existing) { record := some record, restart := true }
  | fails {existing record : RecoveryRecord} (before : existing.phase = .restarting)
      (is : record = config.recordStartFailure existing record.updatedAt) :
      RecoveryMove config observation (some existing) { record := some record }
  | exits {existing : RecoveryRecord} {now : Int} (reports : observation.ReportsExit)
      (toRun : existing.desiredState = .running)
      (other : existing.lastStartedAt ≠ some observation.startedAt) :
      RecoveryMove config observation (some existing)
        { record := some (config.recordExit existing observation now), counted := true }
  | new {record : RecoveryRecord} (attempts : record.attempts = 0) (phase : record.phase = .idle) :
      RecoveryMove config observation none { record := some record }
  | newExit {initial : RecoveryRecord} {now : Int} (attempts : initial.attempts = 0)
      (phase : initial.phase = .idle) (reports : observation.ReportsExit) :
      RecoveryMove config observation none
        { record := some (config.recordExit initial observation now), counted := true }
  | forgets {existing : Option RecoveryRecord} :
      RecoveryMove config observation existing { record := none, reset := true }

namespace RecoveryConfig

variable {config : RecoveryConfig} {existing : RecoveryRecord} {observation : RecoveryObservation} {now : Int}

theorem reconcileRunning_moves :
    RecoveryMove config observation (some existing) (config.reconcileRunning existing observation now) := by
  unfold reconcileRunning
  dsimp only
  split
  · exact .startsOver rfl rfl
  split
  · exact .settles rfl (.inr rfl)
  split
  · rename_i before
    by_cases ready : observation.ready = true
    · rw [if_pos ready]
      exact .settles rfl (.inr rfl)
    · rw [if_neg ready]
      exact .runs rfl before rfl
  · split
    · exact .kept rfl rfl
    · exact .kept rfl rfl

theorem reconcileStopped_moves :
    RecoveryMove config observation (some existing) (reconcileStopped existing observation now) := by
  unfold reconcileStopped
  extract_lets stop stopPending
  split
  · exact .kept rfl rfl
  · exact .startsOver rfl rfl

theorem reconcileNew_moves (managed : observation.managedByRelay = true) :
    RecoveryMove config observation none (config.reconcileNew observation now) := by
  unfold reconcileNew
  extract_lets preserveRunningIntent desiredState initial
  split
  · rename_i exited
    have still : observation.running = false := by simpa using exited.2.1
    have settled : observation.restarting = false := by simpa using exited.2.2
    have preserves : preserveRunningIntent = true := by
      by_contra other
      have stopped : desiredState = .stopped := if_neg other
      rw [stopped] at exited
      exact nomatch exited.1
    simp only [preserveRunningIntent, still, settled, Bool.false_or, Bool.and_eq_true] at preserves
    exact .newExit rfl rfl ⟨managed, still, settled, preserves.1⟩
  · exact .new rfl rfl

theorem recordStartFailure_updatedAt : (config.recordStartFailure existing now).updatedAt = now := by
  unfold recordStartFailure
  split <;> rfl

theorem reconcileObservation_moves (paused startActive : Bool) (existing : Option RecoveryRecord)
    (observation : RecoveryObservation) (now : Int) :
    RecoveryMove config observation existing
      (config.reconcileObservation paused startActive existing observation now) := by
  unfold reconcileObservation
  split
  · exact .forgets
  rename_i managed
  have managed' : observation.managedByRelay = true := by simpa using managed
  cases existing with
  | none => exact reconcileNew_moves managed'
  | some existing =>
    dsimp only
    split
    · exact .kept rfl rfl
    split
    · exact reconcileStopped_moves
    rename_i wanted
    split
    · exact reconcileRunning_moves
    rename_i still
    split
    · exact .settles rfl (.inl rfl)
    rename_i ready
    split
    · exact .kept rfl rfl
    rename_i settled
    split
    · rename_i due
      split
      · exact .kept rfl rfl
      · exact .requests rfl due.1 rfl
    split
    · rename_i restarting
      split
      · exact .kept rfl rfl
      split
      · exact .kept rfl rfl
      split
      · exact .kept rfl rfl
      · exact .fails restarting.1 (by rw [recordStartFailure_updatedAt])
    split
    · exact .kept rfl rfl
    rename_i other
    refine .exits ⟨managed', by simpa using still, by simpa using settled, by simpa using ready⟩ ?_
      other
    cases toRun : existing.desiredState with
    | running => rfl
    | stopped => exact absurd toRun wanted

end RecoveryConfig

theorem RecoveryMove.reports {config : RecoveryConfig} {observation : RecoveryObservation}
    {existing : Option RecoveryRecord} {change : RecoveryChange}
    (moves : RecoveryMove config observation existing change) (counts : change.counted = true) :
    observation.ReportsExit ∧ ∀ record, existing = some record →
      record.desiredState = .running ∧ record.lastStartedAt ≠ some observation.startedAt := by
  cases moves with
  | exits reports toRun other =>
    refine ⟨reports, fun record is => ?_⟩
    cases is
    exact ⟨toRun, other⟩
  | newExit _ _ reports => exact ⟨reports, fun _ is => absurd is (some_ne_none _).symm⟩
  | _ => cases counts

/-! ## Records -/

/-- What holds of every record: a phase that allows for a start has used an attempt for it. -/
structure RecoveryRecord.Sound (config : RecoveryConfig) (record : RecoveryRecord) : Prop where
  attempts : record.attempts ≤ config.maxRetries
  pending : record.phase = .pending → 0 < record.attempts
  restarting : record.phase = .restarting → 0 < record.attempts ∨ config.maxRetries = 0
  failed : record.phase = .failed → config.maxRetries ≤ record.attempts

namespace RecoveryRecord.Sound

variable {config : RecoveryConfig} {existing record : RecoveryRecord}

theorem of_idle (attempts : record.attempts = 0) (phase : record.phase = .idle) : record.Sound config where
  attempts := by omega
  pending is := absurd (phase.symm.trans is) (by decide)
  restarting is := absurd (phase.symm.trans is) (by decide)
  failed is := absurd (phase.symm.trans is) (by decide)

theorem of_kept (sound : existing.Sound config) (attempts : record.attempts = existing.attempts)
    (phase : record.phase = existing.phase) : record.Sound config where
  attempts := attempts ▸ sound.attempts
  pending is := attempts ▸ sound.pending (phase ▸ is)
  restarting is := attempts ▸ sound.restarting (phase ▸ is)
  failed is := attempts ▸ sound.failed (phase ▸ is)

theorem of_settles (sound : existing.Sound config) (attempts : record.attempts = existing.attempts)
    (phase : record.phase = .idle ∨ record.phase = .monitoring) : record.Sound config where
  attempts := attempts ▸ sound.attempts
  pending is := by rw [is] at phase; exact absurd phase (by decide)
  restarting is := by rw [is] at phase; exact absurd phase (by decide)
  failed is := by rw [is] at phase; exact absurd phase (by decide)

theorem of_runs (sound : existing.Sound config) (attempts : record.attempts = existing.attempts)
    (before : existing.phase = .failed ∨ existing.phase = .pending) (phase : record.phase = .restarting) :
    record.Sound config where
  attempts := attempts ▸ sound.attempts
  pending is := absurd (phase.symm.trans is) (by decide)
  restarting _ := by
    rw [attempts]
    rcases before with failed | pending
    · have used := sound.failed failed
      omega
    · exact .inl (sound.pending pending)
  failed is := absurd (phase.symm.trans is) (by decide)

end RecoveryRecord.Sound

/-- What an exit or a failed start makes of a record: it uses an attempt and waits, or there are none left
    and it fails. -/
def RecoveryRecord.Used (config : RecoveryConfig) (existing record : RecoveryRecord) : Prop :=
  (existing.attempts < config.maxRetries ∧ record.attempts = existing.attempts + 1 ∧ record.phase = .pending) ∨
    (config.maxRetries ≤ existing.attempts ∧ record.attempts = existing.attempts ∧ record.phase = .failed)

namespace RecoveryRecord.Used

variable {config : RecoveryConfig} {existing record : RecoveryRecord} {observation : RecoveryObservation} {now : Int}

theorem recordExit : existing.Used config (config.recordExit existing observation now) := by
  unfold RecoveryConfig.recordExit
  dsimp only
  split
  · rename_i none'
    exact .inr ⟨none', rfl, rfl⟩
  · rename_i left
    exact .inl ⟨by omega, rfl, rfl⟩

theorem recordStartFailure : existing.Used config (config.recordStartFailure existing now) := by
  unfold RecoveryConfig.recordStartFailure
  split
  · rename_i none'
    exact .inr ⟨none', rfl, rfl⟩
  · rename_i left
    exact .inl ⟨by omega, rfl, rfl⟩

theorem sound (used : existing.Used config record) (before : existing.Sound config) :
    record.Sound config := by
  rcases used with ⟨left, attempts, phase⟩ | ⟨none', attempts, phase⟩
  · constructor
    · omega
    · intro _
      omega
    · exact fun is => absurd (phase.symm.trans is) (by decide)
    · exact fun is => absurd (phase.symm.trans is) (by decide)
  · constructor
    · exact attempts ▸ before.attempts
    · exact fun is => absurd (phase.symm.trans is) (by decide)
    · exact fun is => absurd (phase.symm.trans is) (by decide)
    · intro _
      omega

end RecoveryRecord.Used

/-! ## The budget -/

namespace RecoveryWorld

/-- A start that may still be issued: it waits for its turn, or to be made again. -/
def Live (world : RecoveryWorld) : Prop :=
  ∃ token start, world.activeStart = some token ∧ world.workers.get token = some start ∧ start.stage ≠ .starting

/-- The starts that a record's attempts still allow for: one where it's pending or requested. -/
structure Covers (starts : Nat) (live : Prop) (record : RecoveryRecord) : Prop where
  used : starts ≤ record.attempts
  pending : record.phase = .pending → starts < record.attempts
  -- One requested before the attempts started over isn't wanted until another attempt is used.
  live : live → starts < record.attempts ∨ record.attempts = 0

/-- What holds of every run. -/
structure Budgeted (config : RecoveryConfig) (world : RecoveryWorld) : Prop where
  sound : ∀ record, world.record = some record → record.Sound config
  covers : ∀ record, world.record = some record → Covers world.starts world.Live record
  gone : world.record = none → world.starts = 0
  retries : world.Live → 0 < config.maxRetries
  tokens : ∀ token start, world.workers.get token = some start → token < world.nextToken
  previous : ∀ power, world.power = some power → world.starts = 0 ∧
    ∀ record, power.previous = some record → record.Sound config

namespace Covers

variable {config : RecoveryConfig} {starts : Nat} {live live' : Prop} {existing record : RecoveryRecord}

theorem of_idle (attempts : record.attempts = 0) (phase : record.phase ≠ .pending) : Covers 0 live record where
  used := Nat.zero_le _
  pending is := absurd is phase
  live _ := Or.inr attempts

theorem of_same (covers : Covers starts live existing) (attempts : record.attempts = existing.attempts)
    (phase : record.phase = .pending → existing.phase = .pending) (fewer : live' → live) :
    Covers starts live' record where
  used := attempts ▸ covers.used
  pending is := attempts ▸ covers.pending (phase is)
  live is := attempts ▸ covers.live (fewer is)

theorem of_requests (covers : Covers starts live existing) (before : existing.phase = .pending)
    (attempts : record.attempts = existing.attempts) (phase : record.phase = .restarting) :
    Covers starts live' record where
  used := attempts ▸ covers.used
  pending is := absurd (phase.symm.trans is) (by decide)
  live _ := Or.inl (attempts ▸ covers.pending before)

theorem of_used (covers : Covers starts live existing) (used : existing.Used config record)
    (retries : live' → 0 < config.maxRetries) (fewer : live' → live) : Covers starts live' record := by
  have before := covers.used
  rcases used with ⟨-, attempts, -⟩ | ⟨none', attempts, phase⟩
  · constructor
    · omega
    · intro _
      omega
    · intro _
      omega
  · constructor
    · omega
    · exact fun is => absurd (phase.symm.trans is) (by decide)
    · intro alive
      have some' := retries alive
      have held := covers.live (fewer alive)
      omega

end Covers

section Live

variable {world : RecoveryWorld} {token : Nat}

theorem live_of_ended (live : (world.ended token).Live) : world.Live := by
  rcases live with ⟨other, start, active, is, stage⟩
  refine ⟨other, start, ?_, ?_, stage⟩
  · unfold ended at active
    dsimp only at active
    split at active
    · cases active
    · exact active
  · unfold ended at is
    rw [get_delete] at is
    split at is
    · cases is
    · exact is

theorem not_live_ended (active : world.activeStart = some token) : ¬ (world.ended token).Live := by
  rintro ⟨other, start, active', -⟩
  unfold ended at active'
  dsimp only at active'
  rw [if_pos active] at active'
  exact absurd active' (some_ne_none _).symm

theorem tokens_ended {bound : Nat}
    (tokens : ∀ other start, world.workers.get other = some start → other < bound) (other : Nat)
    (start : RecoveryStart) (is : (world.ended token).workers.get other = some start) :
    other < bound := by
  unfold ended at is
  rw [get_delete] at is
  split at is
  · cases is
  · exact tokens other start is

end Live

namespace Budgeted

variable {config : RecoveryConfig} {world : RecoveryWorld}

/-- A step that leaves the starts alone, or lets the attempts start over. -/
theorem of_record (budgeted : world.Budgeted config) {after : RecoveryWorld}
    (workers : after.workers = world.workers) (active : after.activeStart = world.activeStart)
    (nextToken : after.nextToken = world.nextToken) (power : after.power = world.power)
    (starts : after.starts = world.starts ∨ after.starts = 0)
    (gone : after.record = none → after.starts = 0)
    (record : ∀ record, after.record = some record →
      record.Sound config ∧ Covers after.starts world.Live record) : after.Budgeted config := by
  have live : after.Live → world.Live := by
    rintro ⟨token, start, active', is, stage⟩
    exact ⟨token, start, active ▸ active', workers ▸ is, stage⟩
  constructor
  · exact fun record' is => (record record' is).1
  · intro record' is
    exact (record record' is).2.of_same rfl id live
  · exact gone
  · exact fun alive => budgeted.retries (live alive)
  · intro token start is
    rw [nextToken]
    exact budgeted.tokens token start (workers ▸ is)
  intro power' is
  rw [power] at is
  rcases budgeted.previous power' is with ⟨none', previous⟩
  rcases starts with same | reset
  · exact ⟨same.trans none', previous⟩
  · exact ⟨reset, previous⟩

theorem requested (budgeted : world.Budgeted config) {existing record : RecoveryRecord}
    (is : world.record = some existing) (before : existing.phase = .pending)
    (attempts : record.attempts = existing.attempts) (phase : record.phase = .restarting)
    (after : RecoveryWorld) (record' : after.record = some record) (starts : after.starts = world.starts)
    (workers : after.workers = world.workers) (nextToken : after.nextToken = world.nextToken)
    (power : after.power = world.power) (now : Int) : (after.requested now).Budgeted config := by
  have covers := budgeted.covers existing is
  have sound := budgeted.sound existing is
  have used := covers.pending before
  constructor
  · intro other is'
    cases record'.symm.trans is'
    exact sound.of_runs attempts (.inr before) phase
  · intro other is'
    cases record'.symm.trans is'
    show Covers after.starts _ record
    rw [starts]
    exact covers.of_requests before attempts phase
  · intro is'
    exact absurd (record'.symm.trans is') (some_ne_none _)
  · intro _
    have bound := sound.attempts
    omega
  · intro token start is'
    have got : (world.workers.set world.nextToken { requestedAt := now }).get token = some start := by
      rw [← workers, ← nextToken]
      exact is'
    show token < after.nextToken + 1
    rw [nextToken]
    rw [get_set] at got
    split at got
    · omega
    · have below := budgeted.tokens token start got
      omega
  · intro power' is'
    rcases budgeted.previous power' (power ▸ is') with ⟨none', previous⟩
    exact ⟨starts.trans none', previous⟩

theorem observed (budgeted : world.Budgeted config) (observation : RecoveryObservation) (now : Int) :
    (world.observed config observation now).Budgeted config := by
  unfold RecoveryWorld.observed
  have moves := @RecoveryConfig.reconcileObservation_moves config world.paused
    world.activeStart.isSome world.record observation now
  generalize config.reconcileObservation world.paused world.activeStart.isSome world.record
    observation now = change at moves
  generalize held : world.record = existing at moves
  -- What is made of a record that is there.
  have keeps {existing record : RecoveryRecord} {stop counted reset : Bool}
      (is : world.record = some existing) (sound : existing.Sound config → record.Sound config)
      (covers : Covers world.starts world.Live existing →
        Covers (if reset then 0 else world.starts) world.Live record) :
      (world.changed observation now
        { record := some record, restart := false, stop, counted, reset }).Budgeted config := by
    refine budgeted.of_record rfl rfl rfl rfl ?_ (fun none' => absurd none' (some_ne_none _)) ?_
    · cases reset
      · exact .inl rfl
      · exact .inr rfl
    · intro other is'
      cases is'
      exact ⟨sound (budgeted.sound _ is), covers (budgeted.covers _ is)⟩
  cases moves with
  | kept attempts phase =>
    exact keeps held (·.of_kept attempts phase) (·.of_same attempts (fun is => phase ▸ is) id)
  | startsOver attempts phase =>
    exact keeps held (fun _ => .of_idle attempts phase) (fun _ => .of_idle attempts (by rw [phase]; decide))
  | settles attempts phase =>
    refine keeps held (·.of_settles attempts phase) (·.of_same attempts (fun is => ?_) id)
    rw [is] at phase
    exact absurd phase (by decide)
  | runs attempts before phase =>
    refine keeps held (·.of_runs attempts before phase) (·.of_same attempts (fun is => ?_) id)
    exact absurd (phase.symm.trans is) (by decide)
  | @requests existing record attempts before phase =>
    exact budgeted.requested held before attempts phase
      { world with record := some record, owed := world.owed && true } rfl rfl rfl rfl rfl now
  | fails before is =>
    have used : RecoveryRecord.Used config _ _ := is ▸ RecoveryRecord.Used.recordStartFailure
    exact keeps held used.sound (·.of_used used budgeted.retries id)
  | exits =>
    exact keeps held RecoveryRecord.Used.recordExit.sound (·.of_used RecoveryRecord.Used.recordExit budgeted.retries id)
  | new attempts phase =>
    have none' := budgeted.gone held
    refine budgeted.of_record rfl rfl rfl rfl (.inl rfl) (fun _ => none') fun other is => ?_
    cases is
    show _ ∧ Covers world.starts _ _
    rw [none']
    exact ⟨.of_idle attempts phase, .of_idle attempts (by rw [phase]; decide)⟩
  | @newExit initial _ attempts phase =>
    have none' := budgeted.gone held
    refine budgeted.of_record rfl rfl rfl rfl (.inl rfl) (fun _ => none') fun other is => ?_
    cases is
    show _ ∧ Covers world.starts _ _
    rw [none']
    have sound : initial.Sound config := .of_idle attempts phase
    have covers : Covers 0 world.Live initial := .of_idle attempts (by rw [phase]; decide)
    exact ⟨RecoveryRecord.Used.recordExit.sound sound,
      covers.of_used RecoveryRecord.Used.recordExit budgeted.retries id⟩
  | forgets =>
    exact budgeted.of_record rfl rfl rfl rfl (.inr rfl) (fun _ => rfl) fun other is => absurd is (some_ne_none _).symm

theorem recorded (budgeted : world.Budgeted config) (action : PowerAction) (now : Int) :
    (world.powerRecorded action now).Budgeted config := by
  refine budgeted.of_record rfl rfl rfl rfl (.inr rfl) (fun _ => rfl) fun record is => ?_
  cases is
  exact ⟨.of_idle rfl rfl, .of_idle rfl (fun is => by cases is)⟩

variable {start : RecoveryStart} {token : Nat}

theorem spare (budgeted : world.Budgeted config) (wanted : world.StillWanted token)
    (is : world.workers.get token = some start) (stage : start.stage ≠ .starting) :
    ∃ record, world.record = some record ∧ record.phase = .restarting ∧ world.starts < record.attempts := by
  rcases wanted with ⟨active, record, held, -, phase⟩
  have live : world.Live := ⟨token, start, active, is, stage⟩
  refine ⟨record, held, phase, ?_⟩
  have some' := budgeted.retries live
  rcases (budgeted.covers record held).live live with spare | none'
  · exact spare
  · rcases (budgeted.sound record held).restarting phase with used | none''
    · omega
    · omega

theorem turn (budgeted : world.Budgeted config) (wanted : world.StillWanted token)
    (is : world.workers.get token = some start) (stage : start.stage ≠ .starting)
    (power : world.power = none) : Budgeted config { world with
      workers := world.workers.set token { start with stage := .starting }
      starts := world.starts + 1 } := by
  rcases budgeted.spare wanted is stage with ⟨record, held, phase, spare⟩
  have dead : ¬ RecoveryWorld.Live { world with
      workers := world.workers.set token { start with stage := .starting }
      starts := world.starts + 1 } := by
    rintro ⟨other, start', active, is', stage'⟩
    dsimp only at active is'
    cases wanted.1.symm.trans active
    rw [get_set, if_pos rfl] at is'
    cases is'
    exact stage' rfl
  constructor
  · exact budgeted.sound
  · intro other is'
    cases held.symm.trans is'
    refine ⟨spare, fun pending => ?_, fun live => absurd live dead⟩
    exact absurd (phase.symm.trans pending) (by decide)
  · exact fun none' => absurd (held.symm.trans none') (some_ne_none _)
  · exact fun live => absurd live dead
  · intro other start' is'
    dsimp only at is'
    rw [get_set] at is'
    split at is'
    · rename_i same
      exact same ▸ budgeted.tokens token start is
    · exact budgeted.tokens other start' is'
  · intro power' is'
    exact absurd (power.symm.trans is') (some_ne_none _).symm

theorem ended (budgeted : world.Budgeted config) (token : Nat) : (world.ended token).Budgeted config := by
  constructor
  · exact budgeted.sound
  · intro record is
    exact (budgeted.covers record is).of_same rfl id live_of_ended
  · exact budgeted.gone
  · exact fun live => budgeted.retries (live_of_ended live)
  · exact tokens_ended budgeted.tokens
  · exact budgeted.previous

theorem endedWith (budgeted : world.Budgeted config) (active : world.activeStart = some token)
    {record : RecoveryRecord} (sound : record.Sound config) (used : world.starts ≤ record.attempts)
    (pending : record.phase = .pending → world.starts < record.attempts) :
    (RecoveryWorld.ended { world with record := some record } token).Budgeted config := by
  have dead : ¬ (RecoveryWorld.ended { world with record := some record } token).Live :=
    not_live_ended active
  constructor
  · intro other is
    cases is
    exact sound
  · intro other is
    cases is
    exact ⟨used, pending, fun live => absurd live dead⟩
  · exact fun is => absurd is (some_ne_none _)
  · exact fun live => absurd live dead
  · exact tokens_ended budgeted.tokens
  · exact budgeted.previous

theorem waitsForResume (budgeted : world.Budgeted config)
    (is : world.workers.get token = some start) (stage : start.stage ≠ .starting) (now : Int) :
    ((world.resumedLater token now).ended token).Budgeted config := by
  unfold resumedLater
  split
  · rename_i current held
    split
    · rename_i waits
      have live : world.Live := ⟨token, start, waits.1, is, stage⟩
      have sound := budgeted.sound current held
      have some' := budgeted.retries live
      have spare : world.starts < current.attempts := by
        rcases (budgeted.covers current held).live live with spare | none'
        · exact spare
        · rcases sound.restarting waits.2 with used | none'' <;> omega
      refine budgeted.endedWith waits.1 ?_ (Nat.le_of_lt spare) fun _ => spare
      exact ⟨sound.attempts, fun _ => Nat.zero_lt_of_lt spare, nofun, nofun⟩
    · exact budgeted.ended token
  · exact budgeted.ended token

theorem startFailed (budgeted : world.Budgeted config) (token : Nat) (requestedAt now : Int) :
    ((world.restartFailed config token requestedAt now).ended token).Budgeted config := by
  unfold restartFailed
  split
  · rename_i current held
    split
    · rename_i wanted
      have used : current.Used config (config.recordStartFailure current now) :=
        RecoveryRecord.Used.recordStartFailure
      have covers := budgeted.covers current held
      have after := covers.of_used used (fun none' : False => none'.elim) (fun none' => none'.elim)
      exact budgeted.endedWith wanted.1.1 (used.sound (budgeted.sound current held)) after.used
        after.pending
    · exact budgeted.ended token
  · exact budgeted.ended token

theorem started (budgeted : world.Budgeted config) (token : Nat) (now : Int) :
    ((world.enforced now).ended token).Budgeted config := by
  have enforced : (world.enforced now).Budgeted config := by
    unfold RecoveryWorld.enforced
    split
    · rename_i current held
      split
      · refine budgeted.of_record rfl rfl rfl rfl (.inl rfl)
          (fun is => absurd is (some_ne_none _)) fun record is => ?_
        cases is
        exact ⟨(budgeted.sound current held).of_kept rfl rfl, (budgeted.covers current held).of_same rfl id id⟩
      · exact budgeted
    · exact budgeted
  exact enforced.ended token

theorem withdrawn (budgeted : world.Budgeted config) (is : world.workers.get token = some start)
    (stage : start.stage ≠ .starting) :
    Budgeted config { world with
      workers := world.workers.set token { start with stage := .withdrawn } } := by
  have live (alive : RecoveryWorld.Live { world with
      workers := world.workers.set token { start with stage := .withdrawn } }) : world.Live := by
    rcases alive with ⟨other, start', active, is', stage'⟩
    dsimp only at active is'
    rw [get_set] at is'
    split at is'
    · rename_i same
      exact ⟨token, start, same ▸ active, is, stage⟩
    · exact ⟨other, start', active, is', stage'⟩
  constructor
  · exact budgeted.sound
  · intro record held
    exact (budgeted.covers record held).of_same rfl id live
  · exact budgeted.gone
  · exact fun alive => budgeted.retries (live alive)
  · intro other start' is'
    dsimp only at is'
    rw [get_set] at is'
    split at is'
    · rename_i same
      exact same ▸ budgeted.tokens token start is
    · exact budgeted.tokens other start' is'
  · exact budgeted.previous

theorem powerFailed (budgeted : world.Budgeted config) {power : PowerUnderWay}
    (is : world.power = some power) : Budgeted config { world with
      record := power.previous, power := none, owed := power.owed } := by
  rcases budgeted.previous power is with ⟨none', sound⟩
  constructor
  · exact sound
  · intro record held
    show Covers world.starts _ record
    rw [none']
    exact ⟨Nat.zero_le _, (sound record held).pending, fun _ => by omega⟩
  · exact fun _ => none'
  · exact budgeted.retries
  · exact budgeted.tokens
  · exact fun _ is' => absurd is' (some_ne_none _).symm

theorem restarted (budgeted : world.Budgeted config) {after : RecoveryWorld}
    (record : after.record = world.record) (starts : after.starts = world.starts)
    (workers : after.workers = .empty) (power : after.power = none) : after.Budgeted config := by
  have dead : ¬ after.Live := by
    rintro ⟨token, start, -, is, -⟩
    rw [workers] at is
    cases is
  constructor
  · exact fun record' is => budgeted.sound record' (record ▸ is)
  · intro record' is
    rw [starts]
    exact (budgeted.covers record' (record ▸ is)).of_same rfl id fun live => absurd live dead
  · intro none'
    exact starts.trans (budgeted.gone (record ▸ none'))
  · exact fun live => absurd live dead
  · intro token start is
    rw [workers] at is
    cases is
  · exact fun _ is => absurd (power.symm.trans is) (some_ne_none _).symm

end Budgeted

variable {world after : RecoveryWorld}

theorem withWorker_eq_some {token : Nat} {stage : RecoveryStage} {next : RecoveryStart → RecoveryWorld}
    (stepped : world.withWorker token stage next = some after) :
    ∃ start, world.workers.get token = some start ∧ start.stage = stage ∧ after = next start := by
  unfold withWorker at stepped
  split at stepped
  · rename_i start is
    split at stepped
    · rename_i same
      exact ⟨start, is, same, (Option.some.inj stepped).symm⟩
    · cases stepped
  · cases stepped

theorem laneFree_power (free : world.laneFree = true) : world.power = none := by
  unfold laneFree at free
  rw [Bool.and_eq_true, Bool.and_eq_true] at free
  exact isNone_iff_eq_none.mp free.1.1

/-- What a step changes of nothing but the stop, the pause and what the model notes. -/
theorem Budgeted.of_same {config : RecoveryConfig} (budgeted : world.Budgeted config)
    (record : after.record = world.record) (active : after.activeStart = world.activeStart)
    (workers : after.workers = world.workers) (nextToken : after.nextToken = world.nextToken)
    (power : after.power = world.power) (starts : after.starts = world.starts) :
    after.Budgeted config := by
  refine budgeted.of_record workers active nextToken power (.inl starts)
    (fun none' => starts.trans (budgeted.gone (record ▸ none'))) fun record' is => ?_
  rw [starts]
  rw [record] at is
  exact ⟨budgeted.sound record' is, budgeted.covers record' is⟩

theorem Budgeted.next {config : RecoveryConfig} {event : RecoveryEvent}
    (budgeted : world.Budgeted config) (stepped : world.next config event = some after) :
    after.Budgeted config := by
  cases event with
  | observe observation now => exact Option.some.inj stepped ▸ budgeted.observed observation now
  | recorded action now => exact Option.some.inj stepped ▸ budgeted.recorded action now
  | power action now =>
    simp only [RecoveryWorld.next] at stepped
    split at stepped
    · cases stepped
      have recorded := budgeted.recorded action now
      refine ⟨recorded.sound, recorded.covers, recorded.gone, recorded.retries, recorded.tokens, ?_⟩
      intro power is
      cases is
      exact ⟨rfl, budgeted.sound⟩
    · cases stepped
  | powered =>
    simp only [RecoveryWorld.next] at stepped
    split at stepped
    · cases stepped
      exact ⟨budgeted.sound, budgeted.covers, budgeted.gone, budgeted.retries, budgeted.tokens,
        fun _ is => absurd is (some_ne_none _).symm⟩
    · cases stepped
  | powerFailed =>
    simp only [RecoveryWorld.next] at stepped
    split at stepped
    · rename_i power is
      exact Option.some.inj stepped ▸ budgeted.powerFailed is
    · cases stepped
  | provisioned desiredState now =>
    cases stepped
    refine budgeted.of_record rfl rfl rfl rfl (.inr rfl) (fun _ => rfl) fun record is => ?_
    cases is
    exact ⟨.of_idle rfl rfl, .of_idle rfl (fun is => by cases is)⟩
  | forgotten =>
    cases stepped
    exact budgeted.of_record rfl rfl rfl rfl (.inr rfl) (fun _ => rfl)
      fun record is => absurd is (some_ne_none _).symm
  | turn token =>
    simp only [RecoveryWorld.next] at stepped
    split at stepped
    · rename_i free
      rcases withWorker_eq_some stepped with ⟨start, is, stage, rfl⟩
      have waits : start.stage ≠ .starting := by rw [stage]; decide
      split
      · rename_i wanted
        exact budgeted.turn wanted is waits (laneFree_power free)
      · exact budgeted.ended token
    · cases stepped
  | refused token =>
    rcases withWorker_eq_some stepped with ⟨start, -, -, rfl⟩
    exact budgeted.ended token
  | withdrawn token =>
    rcases withWorker_eq_some stepped with ⟨start, is, stage, rfl⟩
    exact budgeted.withdrawn is (by rw [stage]; decide)
  | waitsForResume token now =>
    rcases withWorker_eq_some stepped with ⟨start, is, stage, rfl⟩
    exact budgeted.waitsForResume is (by rw [stage]; decide) now
  | started token now =>
    rcases withWorker_eq_some stepped with ⟨start, -, -, rfl⟩
    exact budgeted.started token now
  | startFailed token now =>
    rcases withWorker_eq_some stepped with ⟨start, -, -, rfl⟩
    exact budgeted.startFailed token start.requestedAt now
  | stopTurn =>
    simp only [RecoveryWorld.next] at stepped
    split at stepped
    · exact Option.some.inj stepped ▸ budgeted.of_same rfl rfl rfl rfl rfl rfl
    · cases stepped
  | stopRefused =>
    simp only [RecoveryWorld.next] at stepped
    split at stepped
    · exact Option.some.inj stepped ▸ budgeted.of_same rfl rfl rfl rfl rfl rfl
    · cases stepped
  | stopped ok =>
    simp only [RecoveryWorld.next] at stepped
    split at stepped
    · exact Option.some.inj stepped ▸ budgeted.of_same rfl rfl rfl rfl rfl rfl
    · cases stepped
  | pause => exact Option.some.inj stepped ▸ budgeted.of_same rfl rfl rfl rfl rfl rfl
  | resume => exact Option.some.inj stepped ▸ budgeted.of_same rfl rfl rfl rfl rfl rfl
  | restart => exact Option.some.inj stepped ▸ budgeted.restarted rfl rfl rfl rfl
  | landed =>
    simp only [RecoveryWorld.next] at stepped
    split at stepped
    · cases stepped
    · exact Option.some.inj stepped ▸ budgeted.of_same rfl rfl rfl rfl rfl rfl
  | died =>
    cases stepped
    refine ⟨budgeted.sound, budgeted.covers, budgeted.gone, budgeted.retries, budgeted.tokens, ?_⟩
    intro power is
    rcases map_eq_some_iff.mp is with ⟨before, held, rfl⟩
    exact budgeted.previous before held


section Runs

variable {config : RecoveryConfig} {world : RecoveryWorld}

theorem Budgeted.of_reachable (reached : (recoverySystem config).Reachable world) :
    world.Budgeted config := by
  refine reached.invariant ?_ fun _ _ _ budgeted stepped => budgeted.next stepped
  rintro _ rfl
  constructor
  · exact fun _ is => absurd is (some_ne_none _).symm
  · exact fun _ is => absurd is (some_ne_none _).symm
  · exact fun _ => rfl
  · rintro ⟨_, _, active, -⟩
    cases active
  · exact fun _ _ is => absurd is (some_ne_none _).symm
  · exact fun _ is => absurd is (some_ne_none _).symm

theorem Budgeted.within (budgeted : world.Budgeted config) : world.WithinBudget config where
  starts := by
    cases held : world.record with
    | none =>
      rw [budgeted.gone held]
      exact Nat.zero_le _
    | some record =>
      exact Nat.le_trans (budgeted.covers record held).used (budgeted.sound record held).attempts
  attempts record held := (budgeted.sound record held).attempts
  start token after stepped issued := by
    simp only [RecoveryWorld.next] at stepped
    split at stepped
    · rcases withWorker_eq_some stepped with ⟨start, -, -, rfl⟩
      split at issued
      · rename_i wanted
        rcases wanted.2 with ⟨record, is, running, -⟩
        exact ⟨record, is, running⟩
      · exact absurd rfl issued
    · cases stepped
  stop after stepped stopping := by
    simp only [RecoveryWorld.next] at stepped
    split at stepped
    · cases stepped
      dsimp only at stopping
      split at stopping
      · rename_i wanted
        rcases wanted with ⟨record, is, -, stopped⟩
        exact ⟨record, is, stopped⟩
      · cases stopping
    · cases stepped

end Runs

end RecoveryWorld

end Kiln.Relay
