import Mathlib
import Kiln.Operations.Grants
import Kiln.Lib.Transition

/-!
# In-memory operation lanes

`packages/operations/src/lanes.ts`: the scheduler each Relay, and Hearth, runs for every change
it makes. Waiters are objects there, told apart by identity: here they are numbered in the
order they were admitted and kept in `waiters`, and the two queues and the set of active ones
hold their numbers.

A precondition, a `refuse` hook and a `whenBusy` function may answer differently each time they
are asked, so each is a function of how often the lanes have asked one (`asked`). They don't
call back into the lanes, and no fiber runs inside a call: `Kiln.Operations.Reentrant` models
the calls an operation makes from inside the one that starts it.
-/

namespace Kiln.Operations
open Kiln.Lib

/-- The reasons of a `LaneRejectedError` (`lanes.ts:19-25`). -/
inductive RejectReason where
  | busy
  | cancelled
  | paused
  | refused
  | superseded
  deriving DecidableEq, Repr

/-- `LaneRejectedError` (`lanes.ts:16-30`). -/
structure LaneRejectedError where
  reason : RejectReason
  message : String
  blockedBy : Option (List String) := none
  deriving DecidableEq, Repr

/-- How a waiter's `granted` deferred was settled. -/
inductive Settled where
  | void
  | fail (error : LaneRejectedError)
  | die (cause : String)
  deriving DecidableEq, Repr

/-- `WaiterState` (`lanes.ts:110`). -/
inductive WaiterState where
  | done
  | granted
  | running
  | waiting
  deriving DecidableEq, Repr

/-- `Waiter` (`lanes.ts:112-129`). -/
structure Waiter (κ : Type) where
  label : String
  nested : Bool
  continuation : Bool
  carriesOnWhilePaused : Bool
  locks : Option (List (LaneLock κ))
  precondition : Option (Nat → Bool)
  granted : Option Settled
  refusal : Option LaneRejectedError
  refused : Option String
  state : WaiterState

/-- What an unused number reads as. -/
def Waiter.unused {κ : Type} : Waiter κ :=
  ⟨"", false, false, false, none, none, none, none, none, .done⟩

/-- The locks of a `LaneAdmission`, or a promise of them. -/
inductive AdmissionLocks (κ : Type) where
  | known (locks : List (LaneLock κ))
  | lookup

/-- `LaneAdmission.whenBusy` (`lanes.ts:60-63`); `decide` answers whether to refuse. -/
inductive WhenBusy (κ : Type) where
  | refuse
  | wait
  | decide (answer : Nat → List (WaitReason String κ) → Bool)

/-- `LaneAdmission` (`lanes.ts:32-70`). -/
structure LaneAdmission (κ : Type) where
  label : String
  locks : AdmissionLocks κ
  precondition : Option (Nat → Bool) := none
  continuation : Bool := false
  whenBusy : Option (WhenBusy κ) := none
  carriesOnWhilePaused : Bool := false

/-- `OperationLanesOptions` (`lanes.ts:131-154`), less the span attribute. -/
structure OperationLanesOptions (κ : Type) where
  maxWaiting : Option Nat := none
  busy : Option String := none
  paused : Option (String → String) := none
  refuse : Option (Nat → String → List (LaneLock κ) → Option String) := none

abbrev WaiterId := Nat

/-- A note in the lanes' history, which the source doesn't keep: the order in which locks became known, operations were
granted, and operations ended, one way or another. -/
inductive LaneEvent where
  | known (id : WaiterId)
  | granted (id : WaiterId)
  | ended (id : WaiterId)
  deriving DecidableEq, Repr

/-- `OperationLanes` (`lanes.ts:158-181`), with the waiters it made and its history, newest first. -/
structure OperationLanes (κ : Type) where
  maxWaiting : Nat
  busyMessage : String
  pausedMessage : String → String
  refuse : Option (Nat → String → List (LaneLock κ) → Option String)
  waiting : List WaiterId
  nested : List WaiterId
  active : List WaiterId
  exclusiveStarts : OrderedMap κ Nat
  paused : Bool
  held : LockTable κ
  waiters : WaiterId → Waiter κ
  admitted : Nat
  asked : Nat
  history : List LaneEvent

namespace OperationLanes

variable {κ : Type} [LinearOrder κ]

def defaultMaxWaiting : Nat := 512

/-- The constructor of `OperationLanes` (`lanes.ts:171-181`). -/
def new (options : OperationLanesOptions κ) : OperationLanes κ where
  maxWaiting := options.maxWaiting.getD defaultMaxWaiting
  busyMessage := options.busy.getD "Too many operations are waiting; try again shortly"
  pausedMessage :=
    options.paused.getD fun label => label ++ " didn't run: operations are paused"
  refuse := options.refuse
  waiting := []
  nested := []
  active := []
  exclusiveStarts := .empty
  paused := false
  held := .empty
  waiters := fun _ => .unused
  admitted := 0
  asked := 0
  history := []

/-- Changes one waiter. -/
def update (lanes : OperationLanes κ) (id : WaiterId) (change : Waiter κ → Waiter κ) :
    OperationLanes κ :=
  { lanes with waiters := Function.update lanes.waiters id (change (lanes.waiters id)) }

def note (lanes : OperationLanes κ) (event : LaneEvent) : OperationLanes κ :=
  { lanes with history := event :: lanes.history }

/-- `waiter.locks ?? []`. -/
def locksOf (lanes : OperationLanes κ) (id : WaiterId) : List (LaneLock κ) :=
  (lanes.waiters id).locks.getD []

/-- `Deferred.doneUnsafe`: settling a deferred again changes nothing. -/
def settle (granted : Option Settled) (how : Settled) : Option Settled :=
  match granted with
  | none => some how
  | some earlier => some earlier

/-- `#pausedError` (`lanes.ts:472-477`). -/
def pausedError (lanes : OperationLanes κ) (waiter : Waiter κ) : LaneRejectedError where
  reason := .paused
  message := lanes.pausedMessage waiter.label

/-- `#remove` (`lanes.ts:479-483`). -/
def remove (lanes : OperationLanes κ) (id : WaiterId) : OperationLanes κ :=
  if (lanes.waiters id).nested then { lanes with nested := lanes.nested.erase id }
  else { lanes with waiting := lanes.waiting.erase id }

/-- Ends a waiter that hasn't started: its state, then its deferred. -/
def conclude (lanes : OperationLanes κ) (id : WaiterId) (how : Settled) : OperationLanes κ :=
  (lanes.update id fun waiter =>
    { waiter with state := .done, granted := settle waiter.granted how }).note (.ended id)

/-- `#reject` (`lanes.ts:467-470`). -/
def reject (lanes : OperationLanes κ) (id : WaiterId) (error : LaneRejectedError) :
    OperationLanes κ :=
  lanes.conclude id (.fail error)

/-- `#start` (`lanes.ts:493-497`). -/
def start (lanes : OperationLanes κ) (id : WaiterId) : OperationLanes κ :=
  let lanes := lanes.update id fun waiter =>
    { waiter with state := .granted, granted := settle waiter.granted .void }
  { lanes with
    active := if id ∈ lanes.active then lanes.active else lanes.active ++ [id] }.note (.granted id)

/-- Asks the `refuse` hook; the empty string refuses nothing. -/
def askRefuse (lanes : OperationLanes κ) (label : String) (locks : List (LaneLock κ)) :
    Option String × OperationLanes κ :=
  match lanes.refuse with
  | none => (none, lanes)
  | some hook =>
      ((hook lanes.asked label locks).filter (· ≠ ""), { lanes with asked := lanes.asked + 1 })

/-- Asks a waiter's precondition. -/
def askPrecondition (lanes : OperationLanes κ) (id : WaiterId) : Bool × OperationLanes κ :=
  match (lanes.waiters id).precondition with
  | none => (true, lanes)
  | some hook => (hook lanes.asked, { lanes with asked := lanes.asked + 1 })

/-- The error of an operation whose precondition no longer holds. -/
def supersededError (waiter : Waiter κ) : LaneRejectedError where
  reason := .superseded
  message := waiter.label ++ " no longer applies"

def refusedError (refused : String) : LaneRejectedError where
  reason := .refused
  message := refused

/-- What the loop over `#nested` does with an operation whose locks are free (`lanes.ts:517-539`). -/
def grantFreeNested (lanes : OperationLanes κ) (id : WaiterId) (locks : List (LaneLock κ)) :
    OperationLanes κ :=
  let waiter := lanes.waiters id
  let lanes := { lanes with nested := lanes.nested.erase id }
  let asked := if waiter.continuation then lanes.askRefuse waiter.label locks else (none, lanes)
  match asked.1 with
  | some refused => asked.2.reject id (refusedError refused)
  | none =>
      let applies := asked.2.askPrecondition id
      if applies.1 then { applies.2 with held := applies.2.held.take locks }.start id
      else applies.2.reject id (supersededError waiter)

/-- The loop over `#nested` (`lanes.ts:506-540`): nested operations wait only for holders, and what they still wait for
is blocked for the line behind them. -/
def grantNested (lanes : OperationLanes κ) (blocked : LockTable κ) : List WaiterId → OperationLanes κ × LockTable κ
  | [] => (lanes, blocked)
  | id :: rest =>
      match (lanes.waiters id).locks with
      | none => grantNested lanes (blocked.take []) rest
      | some locks =>
          if locks.any lanes.held.conflicts then grantNested lanes (blocked.take locks) rest
          else grantNested (lanes.grantFreeNested id locks) blocked rest

/-- The `admit` that `#grant` passes to `selectGrants` (`lanes.ts:542-549`). -/
def admitFree (lanes : OperationLanes κ) (id : WaiterId) : Bool × OperationLanes κ :=
  let asked := lanes.askRefuse (lanes.waiters id).label (lanes.locksOf id)
  match asked.1 with
  | some refused =>
      (false, asked.2.update id fun waiter => { waiter with refused := some refused })
  | none => asked.2.askPrecondition id

/-- What a dropped operation is told (`lanes.ts:555-566`). -/
def dropError (waiter : Waiter κ) : LaneRejectedError :=
  match waiter.refused with
  | none => supersededError waiter
  | some refused => refusedError refused

/-- Picks the waiting operations that may start now, and takes the locks of those it grants (`lanes.ts:541-552`). -/
def select (lanes : OperationLanes κ) (blocked : LockTable κ) :
    GrantSelection κ WaiterId (OperationLanes κ) :=
  selectGrants (fun id => (lanes.waiters id).locks) admitFree lanes.held blocked lanes lanes.waiting

/-- The lanes once a selection is taken out of line (`lanes.ts:553`). -/
def takeOut (selection : GrantSelection κ WaiterId (OperationLanes κ)) : OperationLanes κ :=
  (selection.granted ++ selection.dropped).foldl remove
    { selection.env with held := selection.held }

/-- The last loops of `#grant` (`lanes.ts:554-568`). -/
def finishSelection (lanes : OperationLanes κ) (granted dropped : List WaiterId) :
    OperationLanes κ :=
  let lanes := dropped.foldl (fun lanes id => lanes.reject id (dropError (lanes.waiters id))) lanes
  granted.foldl start lanes

/-- `#grant` (`lanes.ts:503-569`). -/
def grant (lanes : OperationLanes κ) : OperationLanes κ :=
  let nested := lanes.grantNested .empty lanes.nested
  let selection := nested.1.select nested.2
  (takeOut selection).finishSelection selection.granted selection.dropped

/-- `#release` up to its `#grant` (`lanes.ts:486-489`). -/
def letGo (lanes : OperationLanes κ) (id : WaiterId) : OperationLanes κ :=
  let locks := lanes.locksOf id
  let lanes := (lanes.update id fun waiter => { waiter with state := .done }).note (.ended id)
  { lanes with active := lanes.active.erase id, held := lanes.held.release locks }

/-- `#release` (`lanes.ts:485-491`). -/
def release (lanes : OperationLanes κ) (id : WaiterId) : OperationLanes κ :=
  if (lanes.waiters id).state = .done then lanes else (lanes.letGo id).grant

/-- What a withdrawn operation is told (`lanes.ts:452-455`). -/
def withdrawnError (waiter : Waiter κ) : LaneRejectedError where
  reason := .cancelled
  message := waiter.label ++ " was withdrawn before it started"

/-- `#cancel` (`lanes.ts:447-465`). -/
def cancel (lanes : OperationLanes κ) (id : WaiterId) : Bool × OperationLanes κ :=
  match (lanes.waiters id).state with
  | .waiting =>
      (true, ((lanes.remove id).reject id (withdrawnError (lanes.waiters id))).grant)
  | .granted => (true, lanes.release id)
  | _ => (false, lanes)

/-- The operations `setPaused` withdraws from the queues (`lanes.ts:224-227`). -/
def pauseWithdrawn (lanes : OperationLanes κ) : List WaiterId :=
  (lanes.waiting ++ lanes.nested.filter fun id => (lanes.waiters id).continuation).filter
    fun id => !(lanes.waiters id).carriesOnWhilePaused

/-- The loop of `setPaused` over what it withdraws (`lanes.ts:228-232`). -/
def pauseWaiting (lanes : OperationLanes κ) : OperationLanes κ :=
  lanes.pauseWithdrawn.foldl (fun lanes id => (lanes.remove id).reject id (lanes.pausedError (lanes.waiters id))) lanes

/-- Whether the loop of `setPaused` over `#active` passes an operation by (`lanes.ts:234-239`). -/
def pauseKeeps (waiter : Waiter κ) : Bool :=
  (waiter.nested && !waiter.continuation) || waiter.carriesOnWhilePaused ||
    waiter.state ≠ .granted

/-- The loop of `setPaused` over `#active` (`lanes.ts:233-242`). A loop over a `Set` goes on to what is added to it
meanwhile, as `#release` does when it grants; what it deletes is the element it is at. `position` counts those passed
by. -/
def pauseActive : Nat → Nat → OperationLanes κ → OperationLanes κ
  | 0, _, lanes => lanes
  | fuel + 1, position, lanes =>
      match lanes.active[position]? with
      | none => lanes
      | some id =>
          if pauseKeeps (lanes.waiters id) then pauseActive fuel (position + 1) lanes
          else
            let refusal := lanes.pausedError (lanes.waiters id)
            pauseActive fuel position
              ((lanes.update id fun waiter => { waiter with refusal := some refusal }).release id)

/-- What the loop over `#active` has still to pass, or release, at most. -/
def pauseFuel (lanes : OperationLanes κ) : Nat :=
  lanes.active.length + lanes.waiting.length + lanes.nested.length + 1

/-- `setPaused` (`lanes.ts:221-244`). -/
def setPaused (lanes : OperationLanes κ) (paused : Bool) : OperationLanes κ :=
  let lanes := { lanes with paused := paused }
  if !paused then lanes
  else
    let lanes := lanes.pauseWaiting
    (pauseActive lanes.pauseFuel 0 lanes).grant

/-- The `occupant` of `#inTheWay` and `describe` (`lanes.ts:270-273,363-366`). -/
def occupant (lanes : OperationLanes κ) (id : WaiterId) : LaneOccupant String κ :=
  ⟨(lanes.waiters id).label, lanes.locksOf id⟩

/-- `#inTheWay` (`lanes.ts:361-372`). -/
def inTheWay (lanes : OperationLanes κ) (id : WaiterId) : List (WaitReason String κ) :=
  let queue := if (lanes.waiters id).nested then lanes.nested else lanes.waiting
  let ahead := if id ∈ queue then queue.takeWhile (· ≠ id) else []
  explainWait (lanes.locksOf id) (lanes.active.map lanes.occupant) (ahead.map lanes.occupant)

/-- `#refuseBusy` (`lanes.ts:375-386`). -/
def refuseBusy (lanes : OperationLanes κ) (id : WaiterId) (inTheWay : List (WaitReason String κ)) : OperationLanes κ :=
  let blockedBy := (inTheWay.map WaitReason.id).eraseDups
  (lanes.remove id).reject id
    { reason := .busy
      message := (lanes.waiters id).label ++ " is waiting on " ++ ", ".intercalate blockedBy
      blockedBy := some blockedBy }

/-- `#waitingOnTheirOwn` (`lanes.ts:390-395`). -/
def waitingOnTheirOwn (lanes : OperationLanes κ) : Nat :=
  lanes.waiting.length + (lanes.nested.filter fun id => (lanes.waiters id).continuation).length

/-- The waiter an admission makes (`lanes.ts:294-305`). -/
def makeWaiter (admission : LaneAdmission κ) (inside : Bool) : Waiter κ :=
  let continuation := !inside && admission.continuation
  { label := admission.label
    nested := inside || continuation
    continuation := continuation
    carriesOnWhilePaused := admission.carriesOnWhilePaused
    locks := none
    precondition := admission.precondition
    granted := none
    refusal := none
    refused := none
    state := .waiting }

/-- Adds a waiter to the heap of them, under the next number. -/
def alloc (lanes : OperationLanes κ) (waiter : Waiter κ) : OperationLanes κ :=
  { lanes with
    waiters := Function.update lanes.waiters lanes.admitted waiter
    admitted := lanes.admitted + 1 }

/-- `queue.push(waiter)` (`lanes.ts:315`). -/
def push (lanes : OperationLanes κ) (id : WaiterId) : OperationLanes κ :=
  if (lanes.waiters id).nested then { lanes with nested := lanes.nested ++ [id] }
  else { lanes with waiting := lanes.waiting ++ [id] }

/-- Stores the locks of a waiter (`lanes.ts:317,332`). -/
def learn (lanes : OperationLanes κ) (id : WaiterId) (locks : List (LaneLock κ)) :
    OperationLanes κ :=
  (lanes.update id fun waiter => { waiter with locks := some (normalizeLocks locks) }).note (.known id)

/-- Puts an admitted waiter in line (`lanes.ts:315-318`). -/
def enqueue (lanes : OperationLanes κ) (id : WaiterId) (locks : AdmissionLocks κ) :
    OperationLanes κ :=
  match locks with
  | .known locks => (lanes.push id).learn id locks
  | .lookup => lanes.push id

/-- What a waiter that wasn't granted as it arrived does about it (`lanes.ts:340-347`). -/
def settleBusy (lanes : OperationLanes κ) (id : WaiterId) (whenBusy : Option (WhenBusy κ)) :
    OperationLanes κ :=
  if (lanes.waiters id).state ≠ .waiting then lanes
  else
    match whenBusy with
    | none => lanes
    | some .wait => lanes
    | some .refuse => lanes.refuseBusy id (lanes.inTheWay id)
    | some (.decide answer) =>
        let inTheWay := lanes.inTheWay id
        let refuse := answer lanes.asked inTheWay
        let lanes := { lanes with asked := lanes.asked + 1 }
        if refuse then lanes.refuseBusy id inTheWay else lanes

/-- The busy message of lanes with too many waiting (`lanes.ts:310-313`). -/
def busyError (lanes : OperationLanes κ) : LaneRejectedError where
  reason := .busy
  message := lanes.busyMessage

/-- Why an admission is turned away before it is in line, if it is (`lanes.ts:307-313`). -/
def turnsAway (lanes : OperationLanes κ) (waiter : Waiter κ) (inside : Bool) :
    Option LaneRejectedError :=
  if !inside && lanes.paused && !waiter.carriesOnWhilePaused then some (lanes.pausedError waiter)
  else if !inside && lanes.maxWaiting ≤ lanes.waitingOnTheirOwn then some lanes.busyError
  else none

/-- `#admit` (`lanes.ts:293-357`): the lanes with the waiter numbered `lanes.admitted`. Its ticket's `grantedAtOnce` is
whether it is in the state `granted` then. -/
def admitWaiter (lanes : OperationLanes κ) (admission : LaneAdmission κ) (inside : Bool) :
    OperationLanes κ :=
  let id := lanes.admitted
  let waiter := makeWaiter admission inside
  match lanes.turnsAway waiter inside with
  | some error => (lanes.alloc waiter).reject id error
  | none =>
      (((lanes.alloc waiter).enqueue id admission.locks).grant).settleBusy id admission.whenBusy

/-- The `onSuccess` of a lookup (`lanes.ts:330-334`). -/
def lookupSucceeded (lanes : OperationLanes κ) (id : WaiterId) (locks : List (LaneLock κ)) :
    OperationLanes κ :=
  if (lanes.waiters id).state ≠ .waiting then lanes else (lanes.learn id locks).grant

/-- The `onFailure` of a lookup (`lanes.ts:323-329`). -/
def lookupFailed (lanes : OperationLanes κ) (id : WaiterId) (cause : String) : OperationLanes κ :=
  if (lanes.waiters id).state ≠ .waiting then lanes
  else ((lanes.remove id).conclude id (.die cause)).grant

/-- `exclusiveGeneration` (`lanes.ts:256-258`). -/
def exclusiveGeneration (lanes : OperationLanes κ) (key : κ) : Nat :=
  (lanes.exclusiveStarts.get key).getD 0

/-- One turn of the loop of `#run` over a waiter's locks (`lanes.ts:429-436`). -/
def countStart (lanes : OperationLanes κ) (lock : LaneLock κ) : OperationLanes κ :=
  if lock.mode = .exclusive then
    { lanes with exclusiveStarts :=
        lanes.exclusiveStarts.set lock.key (lanes.exclusiveGeneration lock.key + 1) }
  else lanes

/-- `#run` from the check of the waiter's state to its effect's start (`lanes.ts:417-436`): whether it starts, and the
lanes then. -/
def beginRun (lanes : OperationLanes κ) (id : WaiterId) : Bool × OperationLanes κ :=
  if (lanes.waiters id).state ≠ .granted then (false, lanes)
  else
    let lanes := lanes.update id fun waiter => { waiter with state := .running }
    (true, (lanes.locksOf id).foldl countStart lanes)

end OperationLanes

/-! ## Runs of the lanes -/

/-- A call into the lanes, or a step of one of the fibers around them. -/
inductive LaneCall (κ : Type) where
  | admitTicket (admission : LaneAdmission κ)
  | runNested (admission : LaneAdmission κ)
  | cancel (id : WaiterId)
  | withdraw (id : WaiterId)
  | setPaused (paused : Bool)
  | lookupSucceeded (id : WaiterId) (locks : List (LaneLock κ))
  | lookupFailed (id : WaiterId) (cause : String)
  /-- `ticket.run` is called: a fiber waits for the grant. -/
  | run (id : WaiterId)
  /-- A fiber whose wait is over goes on. -/
  | resume (id : WaiterId)
  /-- A fiber is interrupted while it waits. -/
  | interrupt (id : WaiterId)
  /-- An effect that was started ends. -/
  | finish (id : WaiterId)

/-- The lanes with the fibers around them: how many wait in `run` for a waiter's grant, whose locks are still being
looked up, how often a waiter's effect was started and ended, and whether `#cancel` said that it withdrew it. -/
structure LaneWorld (κ : Type) where
  lanes : OperationLanes κ
  awaiting : WaiterId → Nat := fun _ => 0
  lookups : WaiterId → Bool := fun _ => false
  started : WaiterId → Nat := fun _ => 0
  finished : WaiterId → Nat := fun _ => 0
  withdrawn : WaiterId → Bool := fun _ => false

namespace LaneWorld

variable {κ : Type} [LinearOrder κ]

/-- `ticket.cancel`, `ticket.withdraw`, and the interruption of a waiting `run`. -/
def cancel (world : LaneWorld κ) (id : WaiterId) : LaneWorld κ :=
  let result := world.lanes.cancel id
  { world with
    lanes := result.2
    withdrawn :=
      if result.1 then Function.update world.withdrawn id true else world.withdrawn }

/-- An admission, which leaves a lookup to settle when it is in line without its locks. -/
def admitWaiter (world : LaneWorld κ) (admission : LaneAdmission κ) (inside : Bool) : LaneWorld κ :=
  { world with
    lanes := world.lanes.admitWaiter admission inside
    lookups :=
      match world.lanes.turnsAway (OperationLanes.makeWaiter admission inside) inside, admission.locks with
      | none, .lookup => Function.update world.lookups world.lanes.admitted true
      | _, _ => world.lookups }

/-- The step of a call, where it can be made. -/
def step (world : LaneWorld κ) : LaneCall κ → Option (LaneWorld κ)
  | .admitTicket admission => some (world.admitWaiter admission false)
  | .runNested admission => some (world.admitWaiter admission true)
  | .cancel id | .withdraw id =>
      if id < world.lanes.admitted then some (world.cancel id) else none
  | .setPaused paused => some { world with lanes := world.lanes.setPaused paused }
  | .lookupSucceeded id locks =>
      if world.lookups id then
        some { world with
          lanes := world.lanes.lookupSucceeded id locks
          lookups := Function.update world.lookups id false }
      else none
  | .lookupFailed id cause =>
      if world.lookups id then
        some { world with
          lanes := world.lanes.lookupFailed id cause
          lookups := Function.update world.lookups id false }
      else none
  | .run id =>
      if id < world.lanes.admitted then
        some { world with
          awaiting := Function.update world.awaiting id (world.awaiting id + 1) }
      else none
  | .resume id =>
      if 0 < world.awaiting id ∧ (world.lanes.waiters id).granted ≠ none then
        let world :=
          { world with awaiting := Function.update world.awaiting id (world.awaiting id - 1) }
        if (world.lanes.waiters id).granted = some .void then
          let begun := world.lanes.beginRun id
          some { world with
            lanes := begun.2
            started := if begun.1 then Function.update world.started id (world.started id + 1)
              else world.started }
        else some world
      else none
  | .interrupt id =>
      if 0 < world.awaiting id then
        some ({ world with
          awaiting := Function.update world.awaiting id (world.awaiting id - 1) }.cancel id)
      else none
  | .finish id =>
      if world.finished id < world.started id then
        some { world with
          lanes := world.lanes.release id
          finished := Function.update world.finished id (world.finished id + 1) }
      else none

/-- New lanes, and nothing around them. -/
def initial (options : OperationLanesOptions κ) : LaneWorld κ :=
  { lanes := .new options }

end LaneWorld

/-- The runs of lanes made with the options, call by call. -/
def laneSystem {κ : Type} [LinearOrder κ] (options : OperationLanesOptions κ) :
    System (LaneWorld κ) (LaneCall κ) :=
  .ofFunction (· = .initial options) LaneWorld.step

end Kiln.Operations
