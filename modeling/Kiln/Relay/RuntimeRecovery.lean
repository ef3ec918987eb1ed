import Kiln.Lib.OrderedMap
import Kiln.Lib.Transition

/-!
# Recovery of game servers that exit

`RuntimeRecoveryManager` (`apps/relay/src/runtime-recovery.ts`) for one game server: each has its own record
and lock. What runs under the lock is one step, since a record that is stored is the record in memory. The
clock says whatever it says, and an observation may be of any time.

A recovery start, a stop that enforces the desired state and a power action each have the server's lane to
themselves (`operation-plans.ts:22-40`), and a pause withdraws what still waits for it
(`packages/operations/src/lanes.ts:216-245`). A stop that enforces the desired state is under way once at
most, so that its token is always its own.

A Docker call that fails has done nothing. Logs, spans and the snapshots that Hearth is shown are left out,
and so are failures of the state store.
-/

namespace Kiln.Relay
open Kiln.Lib

/-! ## Records -/

/-- `RelayDesiredState`. -/
inductive DesiredState where
  | running
  | stopped
  deriving DecidableEq, Repr

/-- `RelayRuntimeRecoveryPhase`. -/
inductive RecoveryPhase where
  | failed
  | idle
  | monitoring
  | pending
  | restarting
  deriving DecidableEq, Repr

/-- The `reason` of a `RelayInstanceRecovery`. -/
inductive RecoveryReason where
  | outOfMemory
  | cleanExit
  | processExit
  | startFailed
  deriving DecidableEq, Repr

/-- `RelayRuntimeRecoveryRecord`. -/
structure RecoveryRecord where
  attempts : Nat
  desiredState : DesiredState
  lastExitAt : Option Int
  lastExitCode : Option Int
  lastOomKilled : Bool
  lastReason : Option RecoveryReason
  lastRuntimeMs : Option Int
  lastStartedAt : Option String
  nextAttemptAt : Option Int
  phase : RecoveryPhase
  stopPending : Bool
  updatedAt : Int
  deriving DecidableEq, Repr

/-- `RuntimeRecoveryObservation`. -/
structure RecoveryObservation where
  dockerRestartConfigured : Bool := false
  exitCode : Int := 0
  finishedAt : String
  installationReady : Bool := true
  managedByRelay : Bool := true
  oomKilled : Bool := false
  ready : Bool
  restarting : Bool := false
  running : Bool
  startedAt : String
  transitionActive : Bool := false
  deriving DecidableEq, Repr

/-- The manager's configuration, with `Date.parse`. -/
structure RecoveryConfig where
  initialDelayMs : Nat
  maxRetries : Nat
  stabilityMs : Nat
  parseDate : String → Option Int

/-- `InstancePowerAction`. -/
inductive PowerAction where
  | kill
  | restart
  | start
  | stop
  deriving DecidableEq, Repr

/-- `MAXIMUM_RETRY_DELAY_MS`. -/
def maximumRetryDelayMs : Nat := 60000

/-- `START_CONFIRMATION_TIMEOUT_MS`. -/
def startConfirmationTimeoutMs : Int := 30000

def retryDelayMs (attempt initialDelayMs : Nat) : Nat :=
  if initialDelayMs = 0 then 0 else min (initialDelayMs * 3 ^ (attempt - 1)) maximumRetryDelayMs

def initialRecoveryRecord (desiredState : DesiredState) (now : Int)
    (lastStartedAt : Option String) : RecoveryRecord where
  attempts := 0
  desiredState
  lastExitAt := none
  lastExitCode := none
  lastOomKilled := false
  lastReason := none
  lastRuntimeMs := none
  lastStartedAt
  nextAttemptAt := none
  phase := .idle
  stopPending := false
  updatedAt := now

def recoveryReason (observation : RecoveryObservation) : RecoveryReason :=
  if observation.oomKilled then .outOfMemory
  else if observation.exitCode = 0 then .cleanExit
  else .processExit

/-- What becomes of a record, and what else is done about it: whether a start is requested, and whether a stop is
scheduled. `counted` and `reset` are noted by nothing but the model: whether an exit was counted, and whether the
attempts start over. -/
structure RecoveryChange where
  record : Option RecoveryRecord
  restart : Bool := false
  stop : Bool := false
  counted : Bool := false
  reset : Bool := false
  deriving DecidableEq, Repr

namespace RecoveryConfig

variable (config : RecoveryConfig)

def runtimeDurationMs (observation : RecoveryObservation) : Option Int :=
  match config.parseDate observation.startedAt, config.parseDate observation.finishedAt with
  | some startedAt, some finishedAt => some (max (finishedAt - startedAt) 0)
  | _, _ => none

def finishedAtMs (finishedAt : String) (fallback : Int) : Int :=
  (config.parseDate finishedAt).getD fallback

/-- `#exhaust`. -/
def exhaust (existing : RecoveryRecord) : RecoveryRecord :=
  { existing with nextAttemptAt := none, phase := .failed }

/-- `#recordStartFailure`. -/
def recordStartFailure (existing : RecoveryRecord) (now : Int) : RecoveryRecord :=
  if existing.attempts ≥ config.maxRetries then
    exhaust { existing with lastReason := some .startFailed, nextAttemptAt := none, updatedAt := now }
  else
    let attempt := existing.attempts + 1
    { existing with
      attempts := attempt
      lastReason := some .startFailed
      nextAttemptAt := some (now + retryDelayMs attempt config.initialDelayMs)
      phase := .pending
      updatedAt := now }

/-- `#recordExit`. -/
def recordExit (existing : RecoveryRecord) (observation : RecoveryObservation) (now : Int) :
    RecoveryRecord :=
  let exited := { existing with
    lastExitAt := some (config.finishedAtMs observation.finishedAt now)
    lastExitCode := some observation.exitCode
    lastOomKilled := observation.oomKilled
    lastReason := some (recoveryReason observation)
    lastRuntimeMs := config.runtimeDurationMs observation
    lastStartedAt := some observation.startedAt
    updatedAt := now }
  if existing.attempts ≥ config.maxRetries then exhaust exited
  else
    let attempt := existing.attempts + 1
    { exited with
      attempts := attempt
      nextAttemptAt := some (now + retryDelayMs attempt config.initialDelayMs)
      phase := .pending }

/-- `#reconcileRunning`. -/
def reconcileRunning (existing : RecoveryRecord) (observation : RecoveryObservation) (now : Int) :
    RecoveryChange :=
  let stable := (config.parseDate observation.startedAt).any fun startedAt =>
    now - startedAt ≥ config.stabilityMs
  let proceeds (phase : RecoveryPhase) : RecoveryChange := { record := some { existing with
    nextAttemptAt := none, phase, stopPending := false, updatedAt := now } }
  if stable ∧ (existing.attempts > 0 ∨ existing.phase ≠ .idle) then
    { record := some { existing with
        attempts := 0, nextAttemptAt := none, phase := .idle, stopPending := false, updatedAt := now }
      reset := true }
  else if observation.ready ∧ existing.phase = .restarting then proceeds .monitoring
  else if existing.phase = .failed ∨ existing.phase = .pending then
    proceeds (if observation.ready then .monitoring else .restarting)
  else if existing.stopPending then
    { record := some { existing with stopPending := false, updatedAt := now } }
  else { record := some existing }

/-- `#requestRestart`, but for the start itself. -/
def requestRestart (existing : RecoveryRecord) (now : Int) : RecoveryChange where
  record := some { existing with
    nextAttemptAt := some (now + startConfirmationTimeoutMs), phase := .restarting, updatedAt := now }
  restart := true

/-- What the first observation of a server makes of it. -/
def reconcileNew (observation : RecoveryObservation) (now : Int) : RecoveryChange :=
  let preserveRunningIntent := observation.running ||
    (observation.installationReady && (observation.restarting ||
      (observation.dockerRestartConfigured && observation.exitCode ≠ 0)))
  let desiredState := if preserveRunningIntent then .running else .stopped
  let initial := initialRecoveryRecord desiredState now
    (if preserveRunningIntent then none else some observation.startedAt)
  if desiredState = .running ∧ ¬ observation.running ∧ ¬ observation.restarting then
    { record := some (config.recordExit initial observation now), counted := true }
  else { record := some initial }

/-- What is made of an observation of a server that isn't to run. -/
def reconcileStopped (existing : RecoveryRecord) (observation : RecoveryObservation) (now : Int) :
    RecoveryChange :=
  let stop := observation.running && existing.stopPending
  let stopPending := if observation.running then existing.stopPending else false
  if existing.phase = .idle ∧ existing.attempts = 0 ∧ existing.nextAttemptAt = none ∧
      stopPending = existing.stopPending then
    { record := some existing, stop }
  else
    { record := some { existing with
        attempts := 0, nextAttemptAt := none, phase := .idle, stopPending, updatedAt := now }
      stop
      reset := true }

/-- `#reconcileObservation`. -/
def reconcileObservation (paused startActive : Bool) (existing : Option RecoveryRecord)
    (observation : RecoveryObservation) (now : Int) : RecoveryChange :=
  if !observation.managedByRelay then { record := none, reset := true }
  else
    match existing with
    | none => config.reconcileNew observation now
    | some existing =>
        let unchanged : RecoveryChange := { record := some existing }
        if observation.transitionActive then unchanged
        else if existing.desiredState = .stopped then reconcileStopped existing observation now
        else if observation.running then config.reconcileRunning existing observation now
        else if !observation.installationReady then
          { record := some { existing with
              desiredState := .stopped
              lastStartedAt := some observation.startedAt
              nextAttemptAt := none
              phase := .idle
              updatedAt := now } }
        else if observation.restarting then unchanged
        else if existing.phase = .pending ∧ existing.nextAttemptAt.any (· ≤ now) then
          -- A paused Relay starts nothing.
          if paused then unchanged else requestRestart existing now
        else if existing.phase = .restarting ∧ existing.lastStartedAt = some observation.startedAt then
          if startActive then unchanged
          else
            match existing.nextAttemptAt with
            | none => { record := some { existing with
                nextAttemptAt := some (now + startConfirmationTimeoutMs), updatedAt := now } }
            | some nextAttemptAt =>
                if nextAttemptAt > now then unchanged
                else { record := some (config.recordStartFailure existing now) }
        else if existing.lastStartedAt = some observation.startedAt then unchanged
        else { record := some (config.recordExit existing observation now), counted := true }

end RecoveryConfig

/-- The record that `recordPowerAction` makes. -/
def RecoveryRecord.afterPowerAction (previous : Option RecoveryRecord) (action : PowerAction)
    (now : Int) : RecoveryRecord :=
  let desiredState := if action = .stop ∨ action = .kill then .stopped else .running
  { previous.getD (initialRecoveryRecord desiredState now none) with
    attempts := 0
    desiredState
    nextAttemptAt := none
    phase := .idle
    stopPending := false
    updatedAt := now }

/-! ## Runs -/

/-- How far a requested start is: it waits for its turn, it was refused by a pause, or it's on its way. -/
inductive RecoveryStage where
  | waiting
  | withdrawn
  | starting
  deriving DecidableEq, Repr

structure RecoveryStart where
  requestedAt : Int
  stage : RecoveryStage := .waiting
  deriving DecidableEq, Repr

/-- How far a stop is that enforces the desired state. -/
inductive StopStage where
  | waiting
  | stopping
  deriving DecidableEq, Repr

/-- A power action under way, with what is restored if it fails. `owed` is the world's. -/
structure PowerUnderWay where
  previous : Option RecoveryRecord
  owed : Bool
  deriving DecidableEq, Repr

/-- The Relay's state of a server: its record, the token in `#activeStarts`, its recovery starts, its stop, whether the
Relay is paused and the power action under way, and the starts that were on their way when the Relay stopped. Three are
noted by nothing but the model: the starts since the attempts last started over, the start times of the exits counted,
and whether a stop is owed: a start came through while the server wasn't to run, and it has neither stopped nor been
told to. -/
structure RecoveryWorld where
  record : Option RecoveryRecord := none
  activeStart : Option Nat := none
  workers : OrderedMap Nat RecoveryStart := .empty
  nextToken : Nat := 0
  stop : Option StopStage := none
  paused : Bool := false
  power : Option PowerUnderWay := none
  orphans : Nat := 0
  starts : Nat := 0
  counted : List String := []
  owed : Bool := false
  deriving DecidableEq

/-- One step. -/
inductive RecoveryEvent where
  /-- `reconcile`, of the server's observation. -/
  | observe (observation : RecoveryObservation) (now : Int)
  /-- `recordPowerAction`, by what doesn't wait for the lane. -/
  | recorded (action : PowerAction) (now : Int)
  | power (action : PowerAction) (now : Int)
  | powered
  | powerFailed
  | provisioned (desiredState : DesiredState) (now : Int)
  | forgotten
  /-- A start's turn comes in the lanes. -/
  | turn (token : Nat)
  /-- The lanes take no more work, or refuse this. -/
  | refused (token : Nat)
  /-- A pause came before its turn. It may be over again. -/
  | withdrawn (token : Nat)
  | waitsForResume (token : Nat) (now : Int)
  | started (token : Nat) (now : Int)
  | startFailed (token : Nat) (now : Int)
  /-- The turn of the stop comes. -/
  | stopTurn
  | stopRefused
  | stopped (ok : Bool)
  | pause
  | resume
  /-- The Relay stops and starts again. -/
  | restart
  /-- A start comes through that was on its way when the Relay stopped. -/
  | landed
  /-- The server stops by itself, or by another's hand. -/
  | died
  deriving DecidableEq, Repr

namespace RecoveryWorld

/-- The server isn't to run. -/
def ToStop (world : RecoveryWorld) : Prop :=
  ∃ record, world.record = some record ∧ record.desiredState = .stopped

instance (world : RecoveryWorld) : Decidable world.ToStop :=
  match is : world.record with
  | some record => decidable_of_iff (record.desiredState = .stopped) (by simp [ToStop, is])
  | none => isFalse (by simp [ToStop, is])

/-- `stillWanted`. -/
def StillWanted (world : RecoveryWorld) (token : Nat) : Prop :=
  world.activeStart = some token ∧ ∃ record, world.record = some record ∧
    record.desiredState = .running ∧ record.phase = .restarting

instance (world : RecoveryWorld) (token : Nat) : Decidable (world.StillWanted token) :=
  match is : world.record with
  | some record => decidable_of_iff
      (world.activeStart = some token ∧ record.desiredState = .running ∧ record.phase = .restarting)
      (by simp [StillWanted, is])
  | none => isFalse (by simp [StillWanted, is])

/-- A start's worker ends, and its token is no longer active. -/
def ended (world : RecoveryWorld) (token : Nat) : RecoveryWorld :=
  { world with
    workers := world.workers.delete token
    activeStart := if world.activeStart = some token then none else world.activeStart }

/-- `#requestRestart`, of the start itself. -/
def requested (world : RecoveryWorld) (now : Int) : RecoveryWorld :=
  { world with
    activeStart := some world.nextToken
    workers := world.workers.set world.nextToken { requestedAt := now }
    nextToken := world.nextToken + 1 }

/-- `#scheduleCompensatingStop`, with the stop that is under way. -/
def scheduleStop (stop : Option StopStage) : Option StopStage := stop.or (some .waiting)

/-- A worker's step, where it is at a stage. -/
def withWorker (world : RecoveryWorld) (token : Nat) (stage : RecoveryStage)
    (next : RecoveryStart → RecoveryWorld) : Option RecoveryWorld :=
  match world.workers.get token with
  | some start => if start.stage = stage then some (next start) else none
  | none => none

/-- What an observation changes. -/
def changed (world : RecoveryWorld) (observation : RecoveryObservation) (now : Int)
    (change : RecoveryChange) : RecoveryWorld :=
  let world := { world with
    record := change.record
    stop := if change.stop then scheduleStop world.stop else world.stop
    starts := if change.reset then 0 else world.starts
    counted := if change.counted then world.counted ++ [observation.startedAt] else world.counted
    owed := world.owed && change.record.isSome }
  if change.restart then world.requested now else world

/-- `reconcile`. -/
def observed (config : RecoveryConfig) (world : RecoveryWorld) (observation : RecoveryObservation)
    (now : Int) : RecoveryWorld :=
  world.changed observation now
    (config.reconcileObservation world.paused world.activeStart.isSome world.record observation now)

/-- `#waitForResume`. -/
def resumedLater (world : RecoveryWorld) (token : Nat) (now : Int) : RecoveryWorld :=
  match world.record with
  | some current =>
      if world.activeStart = some token ∧ current.phase = .restarting then
        { world with record := some { current with
            nextAttemptAt := some now, phase := .pending, updatedAt := now } }
      else world
  | none => world

/-- `#enforceDesiredStateAfterStart`. -/
def enforced (world : RecoveryWorld) (now : Int) : RecoveryWorld :=
  match world.record with
  | some current =>
      if current.desiredState = .stopped then
        { world with
          record := some { current with stopPending := true, updatedAt := now }
          stop := scheduleStop world.stop
          owed := true }
      else world
  | none => world

/-- `#recordRestartFailure`. -/
def restartFailed (config : RecoveryConfig) (world : RecoveryWorld) (token : Nat) (requestedAt now : Int) :
    RecoveryWorld :=
  match world.record with
  | some current =>
      if world.StillWanted token ∧ current.updatedAt = requestedAt then
        { world with record := some (config.recordStartFailure current now) }
      else world
  | none => world

/-- What `recordPowerAction` leaves. The attempts start over, and a stop is no longer owed. -/
def powerRecorded (world : RecoveryWorld) (action : PowerAction) (now : Int) : RecoveryWorld :=
  { world with record := some (.afterPowerAction world.record action now), starts := 0, owed := false }

/-- Nothing has the server's lane to itself. -/
def laneFree (world : RecoveryWorld) : Bool :=
  world.power.isNone && world.stop ≠ some .stopping && world.workers.entries.all fun entry => entry.2.stage ≠ .starting

/-- A stop's turn finds it wanted. -/
def StopWanted (world : RecoveryWorld) : Prop :=
  ∃ record, world.record = some record ∧ record.stopPending = true ∧ record.desiredState = .stopped

instance (world : RecoveryWorld) : Decidable world.StopWanted :=
  match is : world.record with
  | some record => decidable_of_iff (record.stopPending = true ∧ record.desiredState = .stopped)
      (by simp [StopWanted, is])
  | none => isFalse (by simp [StopWanted, is])

def next (config : RecoveryConfig) (world : RecoveryWorld) : RecoveryEvent → Option RecoveryWorld
  | .observe observation now => some (world.observed config observation now)
  | .recorded action now => some (world.powerRecorded action now)
  | .power action now =>
      if world.laneFree then
        some { world.powerRecorded action now with power := some ⟨world.record, world.owed⟩ }
      else none
  | .powered => if world.power.isSome then some { world with power := none } else none
  | .powerFailed =>
      match world.power with
      | some power => some { world with record := power.previous, power := none, owed := power.owed }
      | none => none
  | .provisioned desiredState now =>
      some { world with
        record := some (initialRecoveryRecord desiredState now none), starts := 0, owed := false }
  | .forgotten => some { world with record := none, starts := 0, owed := false }
  | .turn token =>
      if world.laneFree then
        world.withWorker token .waiting fun start =>
          if world.StillWanted token then { world with
            workers := world.workers.set token { start with stage := .starting }
            starts := world.starts + 1 }
          else world.ended token
      else none
  | .refused token => world.withWorker token .waiting fun _ => world.ended token
  | .withdrawn token => world.withWorker token .waiting fun start =>
      { world with workers := world.workers.set token { start with stage := .withdrawn } }
  | .waitsForResume token now => world.withWorker token .withdrawn fun _ =>
      (world.resumedLater token now).ended token
  | .started token now => world.withWorker token .starting fun _ => (world.enforced now).ended token
  | .startFailed token now => world.withWorker token .starting fun start =>
      (world.restartFailed config token start.requestedAt now).ended token
  | .stopTurn =>
      if world.laneFree && world.stop = some .waiting then
        some { world with stop := if world.StopWanted then some .stopping else none }
      else none
  | .stopRefused => if world.stop = some .waiting then some { world with stop := none } else none
  | .stopped ok =>
      if world.stop = some .stopping then
        some { world with stop := none, owed := world.owed && !ok }
      else none
  | .pause => some { world with paused := true }
  | .resume => some { world with paused := false }
  | .restart => some {
      record := world.record
      nextToken := world.nextToken
      paused := world.paused
      orphans := world.orphans + (world.workers.entries.filter fun entry => entry.2.stage = .starting).length
      starts := world.starts
      counted := world.counted
      owed := world.owed }
  | .landed =>
      match world.orphans with
      | 0 => none
      | orphans + 1 => some { world with orphans, owed := world.owed || decide world.ToStop }
  | .died => some { world with
      owed := false, power := world.power.map fun power => { power with owed := false } }

end RecoveryWorld

/-- A Relay that knows nothing of the server yet, and what happens to it. -/
def recoverySystem (config : RecoveryConfig) : System RecoveryWorld RecoveryEvent :=
  .ofFunction (· = {}) (RecoveryWorld.next config)

/-! ## The claims on recovery -/

/-- An observation of a server that isn't running, which may count as an exit. -/
def RecoveryObservation.ReportsExit (observation : RecoveryObservation) : Prop :=
  observation.managedByRelay = true ∧ observation.running = false ∧ observation.restarting = false ∧
    observation.installationReady = true

namespace RecoveryWorld

/-- Nothing old comes late: no exit that was counted, but the last one that the record has; no observation from before a
start that a stop is owed for; and no start from before the Relay restarted, of a server that isn't to run. -/
def Orderly (world : RecoveryWorld) : RecoveryEvent → Prop
  | .observe observation _ =>
      (observation.ReportsExit → ¬ world.ToStop → observation.startedAt ∈ world.counted →
        ∃ record, world.record = some record ∧ record.lastStartedAt = some observation.startedAt) ∧
      (world.owed = true → observation.managedByRelay = true → observation.transitionActive = false →
        observation.running = true)
  | .landed => ¬ world.ToStop
  | _ => True

/-- The budget: starts and attempts are within the retries, a start is issued only while the server is to run, and a
stop only while it isn't. -/
structure WithinBudget (config : RecoveryConfig) (world : RecoveryWorld) : Prop where
  starts : world.starts ≤ config.maxRetries
  attempts : ∀ record, world.record = some record → record.attempts ≤ config.maxRetries
  start : ∀ token after, world.next config (.turn token) = some after → after.starts ≠ world.starts →
    ∃ record, world.record = some record ∧ record.desiredState = .running
  stop : ∀ after, world.next config .stopTurn = some after → after.stop = some .stopping → world.ToStop

/-- A start that comes through while the server isn't to run has a stop under way for it, and one that comes through
while it is has none. A stop that is owed is one that the record has pending, and any observation of the server running
has it under way. -/
structure Compensates (config : RecoveryConfig) (world : RecoveryWorld) : Prop where
  started : ∀ token now after, world.next config (.started token now) = some after →
    (after.owed = true ↔ world.ToStop) ∧ (after.owed = true → after.StopWanted ∧ after.stop.isSome = true)
  pending : world.owed = true → world.StopWanted
  observed : world.owed = true → ∀ observation now, observation.managedByRelay = true →
    observation.transitionActive = false → observation.running = true →
    (world.observed config observation now).stop.isSome = true

end RecoveryWorld

end Kiln.Relay
