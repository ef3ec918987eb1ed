import Kiln.Relay.RuntimeRecoveryBudget

/-!
# Recovery and the desired state

A start that comes through while its server isn't to run leaves a stop pending
(`apps/relay/src/runtime-recovery.ts:672-700`), until the server has stopped, and each exit is counted once
(`:338-346`), in runs where nothing old comes late.
-/

namespace Kiln.Relay
open Kiln.Lib

namespace RecoveryWorld

/-! ## Stops that are owed -/

/-- A record that a stop is pending for. -/
def StopPending (record : RecoveryRecord) : Prop :=
  record.stopPending = true ∧ record.desiredState = .stopped

/-- What holds of runs in which nothing old comes late. -/
structure Settled (world : RecoveryWorld) : Prop where
  counted : world.counted.Nodup
  owed : world.owed = true → world.StopWanted
  previous : ∀ power, world.power = some power → power.owed = true →
    ∃ record, power.previous = some record ∧ StopPending record

theorem StopWanted.toStop {world : RecoveryWorld} (wanted : world.StopWanted) : world.ToStop := by
  rcases wanted with ⟨record, is, -, stopped⟩
  exact ⟨record, is, stopped⟩

/-- A stop that is pending stays so while the server is seen running, and is scheduled. -/
theorem reconcile_stopPending {config : RecoveryConfig} {paused startActive : Bool}
    {existing : RecoveryRecord} (pending : StopPending existing) {observation : RecoveryObservation}
    {now : Int} (managed : observation.managedByRelay = true)
    (running : observation.transitionActive = false → observation.running = true) :
    ∃ record stop reset, config.reconcileObservation paused startActive (some existing) observation now =
        { record := some record, stop, reset } ∧ StopPending record ∧
      (observation.transitionActive = false → stop = true) := by
  unfold RecoveryConfig.reconcileObservation
  rw [managed]
  dsimp only
  rw [if_neg (by decide)]
  split
  · rename_i active
    exact ⟨existing, false, false, rfl, pending, fun idle => absurd (active.symm.trans idle) (by decide)⟩
  rename_i idle
  have seen := running (by simpa using idle)
  rw [if_pos pending.2]
  unfold RecoveryConfig.reconcileStopped
  rw [seen, pending.1]
  simp only [if_true, Bool.and_self]
  split
  · exact ⟨_, _, _, rfl, pending, fun _ => rfl⟩
  · exact ⟨_, _, _, rfl, ⟨rfl, pending.2⟩, fun _ => rfl⟩

namespace Settled

variable {config : RecoveryConfig} {world after : RecoveryWorld}

theorem of_same (settled : world.Settled) (record : after.record = world.record)
    (counted : after.counted = world.counted) (power : after.power = world.power ∨ after.power = none)
    (owed : after.owed = true → world.owed = true) : after.Settled where
  counted := counted ▸ settled.counted
  owed is := by
    rcases settled.owed (owed is) with ⟨record', is', pending⟩
    exact ⟨record', record.trans is', pending⟩
  previous power' is := by
    rcases power with same | none'
    · exact settled.previous power' (same ▸ is)
    · exact absurd (none'.symm.trans is) (Option.some_ne_none _).symm

theorem ended (settled : world.Settled) (token : Nat) : (world.ended token).Settled :=
  settled.of_same rfl rfl (Or.inl rfl) id

theorem counts (settled : world.Settled) {observation : RecoveryObservation} {now : Int}
    (orderly : world.Orderly (.observe observation now)) :
    (world.observed config observation now).counted.Nodup := by
  have moves := @RecoveryConfig.reconcileObservation_moves config world.paused
    world.activeStart.isSome world.record observation now
  unfold RecoveryWorld.observed
  generalize config.reconcileObservation world.paused world.activeStart.isSome world.record
    observation now = change at moves
  have same : (world.changed observation now change).counted =
      if change.counted then world.counted ++ [observation.startedAt] else world.counted := by
    unfold changed
    dsimp only
    split <;> rfl
  rw [same]
  split
  · rename_i counts
    rcases moves.reports counts with ⟨reports, new⟩
    rw [← List.concat_eq_append, List.nodup_concat]
    refine ⟨fun before => ?_, settled.counted⟩
    have toRun : ¬ world.ToStop := by
      rintro ⟨record, is, stopped⟩
      exact absurd ((new record is).1.symm.trans stopped) (by decide)
    rcases orderly.1 reports toRun before with ⟨record, is, last⟩
    exact (new record is).2 last
  · exact settled.counted

theorem observed (settled : world.Settled) {observation : RecoveryObservation} {now : Int}
    (orderly : world.Orderly (.observe observation now)) :
    (world.observed config observation now).Settled := by
  have parts (change : RecoveryChange) : (world.changed observation now change).record = change.record ∧
      (world.changed observation now change).power = world.power ∧
      (world.changed observation now change).owed = (world.owed && change.record.isSome) := by
    unfold changed
    dsimp only
    split <;> exact ⟨rfl, rfl, rfl⟩
  refine ⟨settled.counts orderly, fun owes => ?_, fun power is => ?_⟩
  · unfold RecoveryWorld.observed at owes ⊢
    rcases parts (config.reconcileObservation world.paused world.activeStart.isSome world.record
      observation now) with ⟨record, -, owed⟩
    rw [owed, Bool.and_eq_true] at owes
    rcases settled.owed owes.1 with ⟨existing, held, pending⟩
    by_cases managed : observation.managedByRelay = true
    · rcases @reconcile_stopPending config world.paused world.activeStart.isSome existing pending
        observation now managed (orderly.2 owes.1 managed) with ⟨after, stop, reset, is, pending', -⟩
      refine ⟨after, record.trans ?_, pending'⟩
      rw [held, is]
    · have gone : (config.reconcileObservation world.paused world.activeStart.isSome world.record
          observation now).record = none := by
        unfold RecoveryConfig.reconcileObservation
        rw [if_pos (by simpa using managed)]
      rw [gone] at owes
      exact absurd owes.2 (by decide)
  · exact settled.previous power ((parts _).2.1 ▸ is)

theorem enforced (settled : world.Settled) (now : Int) : (world.enforced now).Settled := by
  unfold RecoveryWorld.enforced
  split
  · rename_i current held
    split
    · rename_i stopped
      exact ⟨settled.counted, fun _ => ⟨_, rfl, rfl, stopped⟩, settled.previous⟩
    · exact settled
  · exact settled

theorem resumedLater (settled : world.Settled) (token : Nat) (now : Int) : (world.resumedLater token now).Settled := by
  unfold RecoveryWorld.resumedLater
  split
  · rename_i current held
    split
    · refine ⟨settled.counted, fun owes => ?_, settled.previous⟩
      rcases settled.owed owes with ⟨record, is, pending⟩
      cases held.symm.trans is
      exact ⟨_, rfl, pending⟩
    · exact settled
  · exact settled

theorem restartFailed (settled : world.Settled) (token : Nat) (requestedAt now : Int) :
    (world.restartFailed config token requestedAt now).Settled := by
  unfold RecoveryWorld.restartFailed
  split
  · rename_i current held
    split
    · rename_i wanted
      refine ⟨settled.counted, fun owes => ?_, settled.previous⟩
      rcases settled.owed owes with ⟨record, is, -, stopped⟩
      rcases wanted.1.2 with ⟨other, is', running, -⟩
      cases is.symm.trans is'
      exact absurd (running.symm.trans stopped) (by decide)
    · exact settled
  · exact settled

theorem next {event : RecoveryEvent} (settled : world.Settled) (orderly : world.Orderly event)
    (stepped : world.next config event = some after) : after.Settled := by
  cases event with
  | observe observation now => exact Option.some.inj stepped ▸ settled.observed orderly
  | recorded action now =>
    cases stepped
    exact ⟨settled.counted, by rintro ⟨⟩, settled.previous⟩
  | power action now =>
    simp only [RecoveryWorld.next] at stepped
    split at stepped
    · cases stepped
      refine ⟨settled.counted, by rintro ⟨⟩, fun power is owes => ?_⟩
      cases is
      exact settled.owed owes
    · cases stepped
  | powered =>
    simp only [RecoveryWorld.next] at stepped
    split at stepped
    · exact Option.some.inj stepped ▸ settled.of_same rfl rfl (Or.inr rfl) id
    · cases stepped
  | powerFailed =>
    simp only [RecoveryWorld.next] at stepped
    split at stepped
    · rename_i power is
      cases stepped
      refine ⟨settled.counted, settled.previous power is, ?_⟩
      exact fun _ is' => absurd is' (Option.some_ne_none _).symm
    · cases stepped
  | provisioned desiredState now =>
    cases stepped
    exact ⟨settled.counted, by rintro ⟨⟩, settled.previous⟩
  | forgotten =>
    cases stepped
    exact ⟨settled.counted, by rintro ⟨⟩, settled.previous⟩
  | turn token =>
    simp only [RecoveryWorld.next] at stepped
    split at stepped
    · rcases withWorker_eq_some stepped with ⟨start, -, -, rfl⟩
      split
      · exact settled.of_same rfl rfl (Or.inl rfl) id
      · exact settled.ended token
    · cases stepped
  | refused token =>
    rcases withWorker_eq_some stepped with ⟨start, -, -, rfl⟩
    exact settled.ended token
  | withdrawn token =>
    rcases withWorker_eq_some stepped with ⟨start, -, -, rfl⟩
    exact settled.of_same rfl rfl (Or.inl rfl) id
  | waitsForResume token now =>
    rcases withWorker_eq_some stepped with ⟨start, -, -, rfl⟩
    exact (settled.resumedLater token now).ended token
  | started token now =>
    rcases withWorker_eq_some stepped with ⟨start, -, -, rfl⟩
    exact (settled.enforced now).ended token
  | startFailed token now =>
    rcases withWorker_eq_some stepped with ⟨start, -, -, rfl⟩
    exact (settled.restartFailed token start.requestedAt now).ended token
  | stopTurn =>
    simp only [RecoveryWorld.next] at stepped
    split at stepped
    · exact Option.some.inj stepped ▸ settled.of_same rfl rfl (Or.inl rfl) id
    · cases stepped
  | stopRefused =>
    simp only [RecoveryWorld.next] at stepped
    split at stepped
    · exact Option.some.inj stepped ▸ settled.of_same rfl rfl (Or.inl rfl) id
    · cases stepped
  | stopped ok =>
    simp only [RecoveryWorld.next] at stepped
    split at stepped
    · cases stepped
      exact settled.of_same rfl rfl (Or.inl rfl) fun owes => (Bool.and_eq_true_iff.mp owes).1
    · cases stepped
  | pause => exact Option.some.inj stepped ▸ settled.of_same rfl rfl (Or.inl rfl) id
  | resume => exact Option.some.inj stepped ▸ settled.of_same rfl rfl (Or.inl rfl) id
  | restart => exact Option.some.inj stepped ▸ settled.of_same rfl rfl (Or.inr rfl) id
  | landed =>
    simp only [RecoveryWorld.next] at stepped
    split at stepped
    · cases stepped
    · cases stepped
      refine settled.of_same rfl rfl (Or.inl rfl) fun owes => ?_
      have none' : decide world.ToStop = false := decide_eq_false orderly
      rwa [none', Bool.or_false] at owes
  | died =>
    cases stepped
    refine ⟨settled.counted, by rintro ⟨⟩, fun power is owes => ?_⟩
    rcases Option.map_eq_some_iff.mp is with ⟨before, -, rfl⟩
    cases owes

end Settled

section Runs

variable {config : RecoveryConfig} {world : RecoveryWorld}

theorem Settled.of_reachable (reached : ((recoverySystem config).restrict RecoveryWorld.Orderly).Reachable world) :
    world.Settled := by
  refine reached.invariant ?_ fun _ _ _ settled stepped => settled.next stepped.1 stepped.2
  rintro _ rfl
  constructor
  · exact List.nodup_nil
  · exact fun owes => absurd owes Bool.false_ne_true
  · exact fun _ is => absurd is (Option.some_ne_none _).symm

theorem enforced_owed (settled : world.Settled) (now : Int) : ((world.enforced now).owed = true ↔ world.ToStop) ∧
      ((world.enforced now).owed = true → (world.enforced now).stop.isSome = true) := by
  have owes : world.owed = true → world.ToStop := fun owed => (settled.owed owed).toStop
  unfold enforced
  split
  · rename_i current held
    split
    · rename_i stopped
      refine ⟨⟨fun _ => ⟨current, held, stopped⟩, fun _ => rfl⟩, fun _ => ?_⟩
      show (scheduleStop world.stop).isSome = true
      unfold scheduleStop
      cases world.stop <;> rfl
    · rename_i running
      have toRun : ¬ world.ToStop := by
        rintro ⟨record, is, stopped⟩
        cases held.symm.trans is
        exact running stopped
      exact ⟨⟨owes, fun stop => absurd stop toRun⟩, fun owed => absurd (owes owed) toRun⟩
  · rename_i none'
    have toRun : ¬ world.ToStop := by
      rintro ⟨record, is, -⟩
      exact absurd (none'.symm.trans is) (Option.some_ne_none _).symm
    exact ⟨⟨owes, fun stop => absurd stop toRun⟩, fun owed => absurd (owes owed) toRun⟩

theorem Settled.compensates (settled : world.Settled) : world.Compensates config where
  started token now after stepped := by
    rcases withWorker_eq_some stepped with ⟨start, -, -, rfl⟩
    rcases enforced_owed settled now with ⟨owed, stop⟩
    exact ⟨owed, fun owes => ⟨((settled.enforced now).ended token).owed owes, stop owes⟩⟩
  pending := settled.owed
  observed owes observation now managed idle running := by
    rcases settled.owed owes with ⟨existing, held, pending⟩
    rcases @reconcile_stopPending config world.paused world.activeStart.isSome existing pending
      observation now managed (fun _ => running) with ⟨record, stop, reset, is, -, scheduled⟩
    unfold RecoveryWorld.observed
    rw [held, is, scheduled idle]
    show (scheduleStop world.stop).isSome = true
    unfold scheduleStop
    cases world.stop <;> rfl

end Runs

instance (observation : RecoveryObservation) : Decidable observation.ReportsExit :=
  inferInstanceAs (Decidable (_ ∧ _ ∧ _ ∧ _))

instance (world : RecoveryWorld) (event : RecoveryEvent) : Decidable (world.Orderly event) :=
  match event with
  | .observe observation _ =>
      let last : Decidable (∃ record, world.record = some record ∧ record.lastStartedAt = some observation.startedAt) :=
        match is : world.record with
        | some record => decidable_of_iff (record.lastStartedAt = some observation.startedAt) (by simp)
        | none => isFalse (by simp)
      instDecidableAnd
  | .landed => instDecidableNot
  | .recorded .. | .power .. | .powered | .powerFailed | .provisioned .. | .forgotten | .turn _
  | .refused _ | .withdrawn _ | .waitsForResume .. | .started .. | .startFailed .. | .stopTurn
  | .stopRefused | .stopped _ | .pause | .resume | .restart | .died => isTrue trivial

end RecoveryWorld

/-- In every run, recovery keeps its budget, and starts and stops a server as it's to run. Where nothing old
    comes late, each exit is counted once, and a start that comes through of a server that isn't to run is
    stopped. -/
theorem recovery_keeps (config : RecoveryConfig) :
    (∀ world, (recoverySystem config).Reachable world → world.WithinBudget config) ∧
      ∀ world, ((recoverySystem config).restrict RecoveryWorld.Orderly).Reachable world →
        world.counted.Nodup ∧ world.Compensates config := by
  constructor
  · exact fun world reached => (RecoveryWorld.Budgeted.of_reachable reached).within
  · intro world reached
    have settled := RecoveryWorld.Settled.of_reachable reached
    exact ⟨settled.counted, settled.compensates⟩

/-! Three starts of one server, a minute apart. -/

def firstStartedAt : String := "2026-08-06T12:00:00.000Z"

def secondStartedAt : String := "2026-08-06T12:01:00.000Z"

/-- The default configuration, with the dates that the runs below use. -/
def defaultRecovery : RecoveryConfig where
  initialDelayMs := 5000
  maxRetries := 2
  stabilityMs := 300000
  parseDate text :=
    if text = firstStartedAt then some 1786017600000
    else if text = secondStartedAt then some 1786017660000
    else none

def runningSince (startedAt : String) : RecoveryObservation :=
  { finishedAt := "0001-01-01T00:00:00.000Z", ready := true, running := true, startedAt }

def crashedSince (startedAt : String) : RecoveryObservation :=
  { finishedAt := startedAt, ready := false, running := false, startedAt, exitCode := 1 }

/-- A server crashes, is started by recovery and crashes again. -/
def crashesTwice : List RecoveryEvent :=
  [.observe (runningSince firstStartedAt) 1786017601000, .observe (crashedSince firstStartedAt) 1786017602000,
    .observe (crashedSince firstStartedAt) 1786017610000, .turn 0, .started 0 1786017660000,
    .observe (crashedSince secondStartedAt) 1786017661000]

theorem recovery_keeps_crashes :
    ((runAll (fun world event => if world.Orderly event then world.next defaultRecovery event else none)
      ({} : RecoveryWorld) crashesTwice).map fun world => world.counted) =
        some [firstStartedAt, secondStartedAt] ∧
    ∀ world, runAll (fun world event =>
        if world.Orderly event then world.next defaultRecovery event else none)
      ({} : RecoveryWorld) crashesTwice = some world →
        world.WithinBudget defaultRecovery ∧ world.counted.Nodup ∧ world.Compensates defaultRecovery := by
  refine ⟨by decide, fun world ran => ?_⟩
  have reached : ((recoverySystem defaultRecovery).restrict RecoveryWorld.Orderly).Reachable world :=
    ⟨_, _, rfl, System.run_of_guardedRunAll ran⟩
  exact ⟨(recovery_keeps defaultRecovery).1 world (System.restrict_reachable reached),
    (recovery_keeps defaultRecovery).2 world reached⟩

theorem crashesTwice_late : (runAll (RecoveryWorld.next defaultRecovery) ({} : RecoveryWorld)
    (crashesTwice ++ [.observe (crashedSince firstStartedAt) 1786017662000])).any (fun world =>
      world.counted = [firstStartedAt, secondStartedAt, firstStartedAt] &&
        world.record.any (·.phase = .failed)) = true := by
  decide

/-- A server is stopped while its recovery start is on its way, and an observation from before comes late. -/
def stoppedMeanwhile : List RecoveryEvent :=
  [.observe (runningSince firstStartedAt) 1786017601000, .observe (crashedSince firstStartedAt) 1786017602000,
    .observe (crashedSince firstStartedAt) 1786017610000, .turn 0, .recorded .stop 1786017611000,
    .started 0 1786017612000, .observe (crashedSince firstStartedAt) 1786017613000]

/-- The stop that the start is owed is no longer pending. -/
theorem stoppedMeanwhile_late : (runAll (RecoveryWorld.next defaultRecovery) ({} : RecoveryWorld)
    stoppedMeanwhile).any (fun world => world.owed && !decide world.StopWanted) = true := by
  decide

theorem recovery_not_kept :
    (¬ ∀ (config : RecoveryConfig) (world : RecoveryWorld),
      (recoverySystem config).Reachable world → world.counted.Nodup) ∧
      ¬ ∀ (config : RecoveryConfig) (world : RecoveryWorld),
        (recoverySystem config).Reachable world → world.Compensates config := by
  constructor
  · intro all
    have late := crashesTwice_late
    rw [Option.any_eq_true] at late
    rcases late with ⟨world, ran, counted⟩
    rw [Bool.and_eq_true, decide_eq_true_eq] at counted
    have once := all defaultRecovery world ⟨{}, _, rfl, System.run_of_runAll ran⟩
    rw [counted.1] at once
    exact absurd once (by decide)
  · intro all
    have late := stoppedMeanwhile_late
    rw [Option.any_eq_true] at late
    rcases late with ⟨world, ran, owed⟩
    rw [Bool.and_eq_true, Bool.not_eq_true', decide_eq_false_iff_not] at owed
    have compensates := all defaultRecovery world ⟨{}, _, rfl, System.run_of_runAll ran⟩
    exact owed.2 (compensates.pending owed.1)

end Kiln.Relay
