import Kiln.Hearth.Lanes
import Kiln.Operations.Lanes

/-!
# Starting operations under an idempotency key

`startDurableOperation`, `queueDurableOperation`, `takeTurn`, `holdLanes` and `dispatch` of
apps/web/src/operations/durable.ts over `recordOperation`, `findOperation` and `startWaitingOperation` of
records.ts and the lanes, for the calls under one kind, idempotency key and input. Each MySQL statement and each
call into the lanes is a step of its own. A call is interrupted by its caller, its statements fail, operations end
by themselves, startup sweeps, and Hearth restarts, at any step; other operations use the lanes as they like.
-/

namespace Kiln.Hearth
open Kiln.Lib Kiln.Operations

/-! ## What the calls share -/

/-- `OperationState` (`records.ts:21-28`). -/
inductive DurableState where
  | cancelled
  | failed
  | interrupted
  | running
  | succeeded
  | waiting
  deriving DecidableEq

/-- A row of the operations under the kind and the key. -/
structure DurableRow where
  id : String
  state : DurableState
  /-- `execution_id` is set. -/
  executed : Bool := false
  deriving DecidableEq

/-- The kind and the locks of what is started, and which labels its operations have in the lanes: those of the IDs drawn
for it, which nothing else has. -/
structure DurableStart where
  kind : String
  /-- `withWholes(operation.locks(input))` -/
  locks : List (LaneLock String)
  isOwn : String → Bool

/-- The label of an operation in the lanes (`durable.ts:581`). -/
def DurableStart.label (start : DurableStart) (id : String) : String := start.kind ++ "#" ++ id

/-- Who an operation runs for. -/
inductive StartInitiator where
  | person
  | system
  deriving DecidableEq

/-- The options of Hearth's lanes (`operations/lanes.ts:47-51`). -/
def hearthLaneOptions : OperationLanesOptions String where
  maxWaiting := some 1024
  busy := some "Hearth is too busy right now. Try again shortly."

/-- `personWhenBusy` (`operation.ts:540-543`): whether what is in the way refuses a person at once. -/
def personWhenBusy (inTheWay : List (WaitReason String String)) : Bool :=
  inTheWay.any fun reason => (wholeKey reason.key).isNone

/-! ## Calls -/

/-- How a call asks. -/
inductive DurableAsk where
  | start (initiator : StartInitiator)
  | queue
  deriving DecidableEq

/-- Where a call is: its caller's fiber up to its admission, then the one that holds its lanes, if it has any. -/
inductive DurableStage where
  | looking
  | opening
  | awaiting (waiter : WaiterId)
  | recording (waiter : Option WaiterId)
  | selecting (waiter : Option WaiterId)
  | recorded (waiter : Option WaiterId) (operation : String) (existing : Bool)
  | holding (waiter : WaiterId) (operation : String)
  | ended
  deriving DecidableEq

/-- What a caller was answered. -/
inductive DurableAnswer where
  | returned (operation : String)
  /-- An `OperationBusyError`, with the labels of what was in the way. -/
  | busy (blockedBy : List String)
  | failed
  | gone
  deriving DecidableEq

structure DurableCall where
  id : String
  ask : DurableAsk
  stage : DurableStage
  answer : Option DurableAnswer := none
  /-- The labels that it waited on when its wait was over. -/
  timedOut : Option (List String) := none
  deriving DecidableEq

/-- An operation that takes its turn, or a restored one that takes back its locks. -/
inductive TurnStage where
  | opening
  | placing
  | admitting
  | awaiting (waiter : WaiterId)
  | begun (waiter : Option WaiterId)
  | holding (waiter : Option WaiterId)
  | ended
  deriving DecidableEq

structure DurableTurn where
  id : String
  locks : List (LaneLock String)
  /-- Running when a Hearth started, which its turn changes nothing of. -/
  restored : Bool := false
  stage : TurnStage

/-- A fiber that starts an operation's workflow. -/
inductive DispatchStage where
  | loading
  | executing
  | noting
  deriving DecidableEq

structure DurableDispatch where
  id : String
  stage : DispatchStage := .loading
  deriving DecidableEq

structure StartsState where
  rows : List DurableRow := []
  /-- Every operation ever recorded under the key. -/
  recorded : List String := []
  lanes : LaneWorld String := .initial hearthLaneOptions
  lanesOpen : Bool := true
  calls : Nat → Option DurableCall := fun _ => none
  turns : Nat → Option DurableTurn := fun _ => none
  /-- The number of the next turn. -/
  nextTurn : Nat := 0
  /-- `queuedHolders` -/
  places : List (String × Nat) := []
  dispatches : List DurableDispatch := []
  /-- The operations whose workflow the engine was asked to run. It runs one for each ID. -/
  workflows : List String := []

inductive StartsEvent where
  /-- A call, its caller's permission checked. -/
  | ask (call : Nat) (id : String) (how : DurableAsk)
  /-- `findOperation` -/
  | lookup (call : Nat)
  /-- The lanes stay closed for as long as a person waits for Hearth to start. -/
  | closed (call : Nat)
  | admits (call : Nat)
  | resume (call : Nat)
  /-- A person's wait is over. -/
  | deadline (call : Nat)
  /-- The INSERT, of which the answer may be lost. -/
  | record (call : Nat) (lost : Bool)
  | select (call : Nat)
  /-- What follows once it is recorded: its dispatch, and the caller's answer. -/
  | announce (call : Nat)
  | release (call : Nat)
  /-- A statement fails, or the permission that is checked again. -/
  | fail (call : Nat)
  | interrupt (call : Nat)
  | openTurn (turn : Nat)
  | place (turn : Nat)
  | admitTurn (turn : Nat)
  /-- It finds that the operation isn't waiting any more. -/
  | notice (turn : Nat)
  | resumeTurn (turn : Nat)
  /-- Not ready: its turn is given back. -/
  | unready (turn : Nat)
  /-- `startWaitingOperation` -/
  | startTurn (turn : Nat)
  | releaseTurn (turn : Nat)
  | dispatch (index : Nat)
  | dispatchFails (index : Nat)
  /-- `finishOperation`, by its workflow, a dispatch that can't run it, or a migration. -/
  | ends (id : String) (outcome : DurableState)
  | cancelWaiting (id : String)
  | sweep
  | readmits (locks : List (LaneLock String))
  | restart
  | restore (id : String) (locks : List (LaneLock String))
  | openLanes
  /-- A call into the lanes by another operation. -/
  | others (call : LaneCall String)

namespace StartsState

def setCall (s : StartsState) (call : Nat) (value : DurableCall) : StartsState :=
  { s with calls := Function.update s.calls call (some value) }

def setTurn (s : StartsState) (turn : Nat) (value : DurableTurn) : StartsState :=
  { s with turns := Function.update s.turns turn (some value) }

/-- `INSERT IGNORE` over the unique key: whether it is recorded. -/
def insertIgnore (s : StartsState) (row : DurableRow) : Bool × StartsState :=
  if s.rows.isEmpty then (true, { s with rows := [row], recorded := s.recorded ++ [row.id] }) else (false, s)

def setRow (s : StartsState) (id : String) (change : DurableRow → DurableRow) : StartsState :=
  { s with rows := s.rows.map fun row => if row.id = id then change row else row }

def rowIn (s : StartsState) (id : String) (state : DurableState) : Bool :=
  s.rows.any fun row => row.id = id && row.state = state

/-- `dispatchSoon` -/
def dispatchSoon (s : StartsState) (id : String) : StartsState :=
  { s with dispatches := s.dispatches ++ [⟨id, .loading⟩] }

def forkTurn (s : StartsState) (turn : DurableTurn) : StartsState :=
  { s.setTurn s.nextTurn turn with nextTurn := s.nextTurn + 1 }

/-- The end of what an operation ran in its lanes. -/
def finishIn (s : StartsState) (waiter : Option WaiterId) : Option StartsState :=
  match waiter with
  | none => some s
  | some waiter => (s.lanes.step (.finish waiter)).map fun lanes => { s with lanes }

/-- What `holdLanes` admits (`durable.ts:581-586`). -/
def admission (start : DurableStart) (id : String) (locks : List (LaneLock String)) (initiator : StartInitiator) :
    LaneAdmission String :=
  { label := start.label id
    locks := .known locks
    whenBusy := some (match initiator with
      | .person => .decide fun _ => personWhenBusy
      | .system => .wait) }

/-- `holdLanes`: an admission, and the fiber that waits for it. -/
def holdLanes (start : DurableStart) (s : StartsState) (id : String) (locks : List (LaneLock String))
    (initiator : StartInitiator) : WaiterId × StartsState :=
  let waiter := s.lanes.lanes.admitted
  let admitted := s.lanes.admitWaiter (admission start id locks initiator) false
  (waiter, { s with lanes :=
    { admitted with awaiting := Function.update admitted.awaiting waiter (admitted.awaiting waiter + 1) } })

/-- What `describe` says that a waiter waits on. -/
def waitingOn (lanes : OperationLanes String) (waiter : WaiterId) : List String :=
  let queue := lanes.nested ++ lanes.waiting
  if waiter ∈ queue then
    match (lanes.waiters waiter).locks with
    | none => []
    | some locks =>
        ((explainWait locks (lanes.active.map lanes.occupant)
          ((queue.takeWhile (· ≠ waiter)).map lanes.occupant)).map WaitReason.id).eraseDups
  else []

/-- The labels that a lane's refusal names. -/
def refusedBy (lanes : OperationLanes String) (waiter : WaiterId) : List String :=
  match (lanes.waiters waiter).granted with
  | some (.fail error) => error.blockedBy.getD []
  | _ => []

/-- The answer of a caller that has none yet. -/
def answered (call : DurableCall) (answer : DurableAnswer) : Option DurableAnswer := call.answer.or (some answer)

/-- The step of a call's own. -/
def callNext (start : DurableStart) (s : StartsState) (index : Nat) (call : DurableCall) :
    StartsEvent → Option StartsState
  | .lookup _ =>
      match call.stage with
      | .looking =>
          match s.rows.head? with
          | some row => some (s.setCall index
              { call with stage := .ended, answer := answered call (.returned row.id) })
          | none => some (s.setCall index { call with stage := .opening })
      | _ => none
  | .closed _ =>
      if call.stage = .opening ∧ call.ask = .start .person ∧ s.lanesOpen = false then
        some (s.setCall index { call with stage := .ended, answer := answered call (.busy []) })
      else none
  | .admits _ =>
      match call.stage, call.ask with
      | .opening, .start initiator =>
          if s.lanesOpen = false then none
          else if start.locks.isEmpty then some (s.setCall index { call with stage := .recording none })
          else
            let held := holdLanes start s call.id start.locks initiator
            some (held.2.setCall index { call with stage := .awaiting held.1 })
      | _, _ => none
  | .resume _ =>
      match call.stage with
      | .awaiting waiter =>
          (s.lanes.step (.resume waiter)).map fun lanes =>
            let s' := { s with lanes }
            if s.lanes.started waiter < lanes.started waiter then
              s'.setCall index { call with stage := .recording (some waiter) }
            else s'.setCall index { call with
              stage := .ended
              answer := answered call (.busy (call.timedOut.getD (refusedBy s.lanes.lanes waiter))) }
      | _ => none
  | .deadline _ =>
      match call.stage, call.ask with
      | .awaiting waiter, .start .person =>
          some ({ s with lanes := s.lanes.cancel waiter }.setCall index
            { call with timedOut := some (waitingOn s.lanes.lanes waiter) })
      | _, _ => none
  | .record _ lost =>
      match call.stage with
      | .recording waiter =>
          let state := if call.ask = .queue then .waiting else .running
          let inserted := s.insertIgnore { id := call.id, state }
          if lost then
            (inserted.2.finishIn waiter).map fun s => s.setCall index
              { call with stage := .ended, answer := answered call .failed }
          else if inserted.1 then
            some (inserted.2.setCall index { call with stage := .recorded waiter call.id false })
          else some (inserted.2.setCall index { call with stage := .selecting waiter })
      | _ => none
  | .select _ =>
      match call.stage with
      | .selecting waiter =>
          match s.rows.head? with
          | some row => some (s.setCall index { call with stage := .recorded waiter row.id true })
          -- "The operation's row went missing"
          | none => (s.finishIn waiter).map fun s => s.setCall index
              { call with stage := .ended, answer := answered call .failed }
      | _ => none
  | .announce _ =>
      match call.stage with
      | .recorded waiter operation existing =>
          let s :=
            if existing then s
            else if call.ask = .queue then
              s.forkTurn { id := operation, locks := start.locks, stage := .opening }
            else s.dispatchSoon operation
          some (s.setCall index { call with
            stage := match waiter with
              | some waiter => .holding waiter operation
              | none => .ended
            answer := answered call (.returned operation) })
      | _ => none
  | .release _ =>
      match call.stage with
      | .holding waiter operation =>
          if s.rowIn operation .running then none
          else (s.finishIn (some waiter)).map fun s => s.setCall index { call with stage := .ended }
      | _ => none
  | .fail _ =>
      match call.stage with
      | .looking => some (s.setCall index { call with stage := .ended, answer := answered call .failed })
      | .recording waiter | .selecting waiter =>
          (s.finishIn waiter).map fun s => s.setCall index
            { call with stage := .ended, answer := answered call .failed }
      | _ => none
  | .interrupt _ =>
      if call.ask = .queue ∨ call.answer ≠ none then none
      else
        let gone := { call with answer := some .gone }
        match call.stage with
        | .awaiting waiter => some ({ s with lanes := s.lanes.cancel waiter }.setCall index gone)
        | .recording (some _) | .selecting (some _) | .recorded (some _) _ _ | .holding _ _ =>
            some (s.setCall index gone)
        | _ => some (s.setCall index { gone with stage := .ended })
  | _ => none

/-- The end of a turn, which gives up its place. -/
def endTurn (s : StartsState) (index : Nat) (turn : DurableTurn) : StartsState :=
  { s.setTurn index { turn with stage := .ended } with
    places := s.places.filter fun place => place ≠ (turn.id, index) }

/-- The step of a turn's own. -/
def turnNext (start : DurableStart) (s : StartsState) (index : Nat) (turn : DurableTurn) :
    StartsEvent → Option StartsState
  | .openTurn _ =>
      if turn.stage = .opening ∧ s.lanesOpen = true then some (s.setTurn index { turn with stage := .placing })
      else none
  | .place _ =>
      if turn.stage = .placing then
        if s.places.any fun place => place.1 = turn.id then some (s.setTurn index { turn with stage := .ended })
        else some { s.setTurn index { turn with stage := .admitting } with
          places := s.places ++ [(turn.id, index)] }
      else none
  | .admitTurn _ =>
      if turn.stage = .admitting then
        if turn.locks.isEmpty then some (s.setTurn index { turn with stage := .begun none })
        else
          let held := holdLanes start s turn.id turn.locks .system
          some (held.2.setTurn index { turn with stage := .awaiting held.1 })
      else none
  | .notice _ =>
      match turn.stage with
      | .awaiting waiter =>
          if turn.restored = false ∧ s.rowIn turn.id .waiting = false then
            some { s with lanes := s.lanes.cancel waiter }
          else none
      | _ => none
  | .resumeTurn _ =>
      match turn.stage with
      | .awaiting waiter =>
          (s.lanes.step (.resume waiter)).map fun lanes =>
            let s' := { s with lanes }
            if s.lanes.started waiter < lanes.started waiter then
              s'.setTurn index { turn with
                stage := if turn.restored then .holding (some waiter) else .begun (some waiter) }
            else s'.endTurn index turn
      | _ => none
  | .unready _ =>
      match turn.stage with
      | .begun waiter => (s.finishIn waiter).map fun s => s.endTurn index turn
      | _ => none
  | .startTurn _ =>
      match turn.stage with
      | .begun waiter =>
          if s.rowIn turn.id .waiting then
            some (((s.setRow turn.id fun row => { row with state := .running }).dispatchSoon turn.id).setTurn index
              { turn with stage := .holding waiter })
          else (s.finishIn waiter).map fun s => s.endTurn index turn
      | _ => none
  | .releaseTurn _ =>
      match turn.stage with
      | .holding waiter =>
          if s.rowIn turn.id .running then none else (s.finishIn waiter).map fun s => s.endTurn index turn
      | _ => none
  | _ => none

/-- `dispatch`: the record is read, the workflow started, and its execution noted. -/
def dispatchNext (s : StartsState) (index : Nat) (fiber : DurableDispatch) : StartsState :=
  match fiber.stage with
  | .loading =>
      if s.rowIn fiber.id .running then
        { s with dispatches := s.dispatches.set index { fiber with stage := .executing } }
      else { s with dispatches := s.dispatches.eraseIdx index }
  | .executing =>
      { s with
        dispatches := s.dispatches.set index { fiber with stage := .noting }
        workflows := s.workflows ++ [fiber.id] }
  | .noting =>
      { s.setRow fiber.id fun row => { row with executed := true } with
        dispatches := s.dispatches.eraseIdx index }

/-- `undispatchedOperations` (`records.ts:456-469`). -/
def undispatched (s : StartsState) : List String :=
  (s.rows.filter fun row => row.state = .running && !row.executed).map DurableRow.id

/-- What a call of another operation may touch. -/
def isOthers (start : DurableStart) (s : StartsState) : LaneCall String → Bool
  | .admitTicket admission | .runNested admission => !start.isOwn admission.label
  | .setPaused _ => true
  | .cancel waiter | .withdraw waiter | .lookupSucceeded waiter _ | .lookupFailed waiter _ | .run waiter
  | .resume waiter | .interrupt waiter | .finish waiter => !start.isOwn (s.lanes.lanes.waiters waiter).label

/-- What is left of a call once its Hearth is gone. -/
def crashed (call : DurableCall) : DurableCall :=
  { call with stage := .ended, answer := answered call .gone }

def next (start : DurableStart) (s : StartsState) (event : StartsEvent) : Option StartsState :=
  match event with
  | .ask call id how =>
      if (s.calls call).isNone ∧ start.isOwn (start.label id) = true then
        some (s.setCall call
          { id, ask := how, stage := if how = .queue then .recording none else .looking })
      else none
  | .lookup call | .closed call | .admits call | .resume call | .deadline call | .record call _ | .select call
  | .announce call | .release call | .fail call | .interrupt call =>
      (s.calls call).bind fun value => s.callNext start call value event
  | .openTurn turn | .place turn | .admitTurn turn | .notice turn | .resumeTurn turn | .unready turn
  | .startTurn turn | .releaseTurn turn => (s.turns turn).bind fun value => s.turnNext start turn value event
  | .dispatch index => s.dispatches[index]?.map (s.dispatchNext index)
  | .dispatchFails index => some { s with dispatches := s.dispatches.eraseIdx index }
  | .ends id outcome =>
      if (s.rowIn id .running ∨ s.rowIn id .waiting) ∧ outcome ≠ .running ∧ outcome ≠ .waiting then
        some (s.setRow id fun row => { row with state := outcome })
      else none
  | .cancelWaiting id =>
      if s.rowIn id .waiting then
        let s' := s.setRow id fun row => { row with state := .cancelled }
        match (s.places.find? fun place => place.1 = id).bind fun place => s.turns place.2 with
        | some ⟨_, _, _, .awaiting waiter⟩ => some { s' with lanes := s'.lanes.cancel waiter }
        | _ => some s'
      else none
  | .sweep => some { s with dispatches := s.dispatches ++ s.undispatched.map fun id => ⟨id, .loading⟩ }
  | .readmits locks =>
      match s.rows.find? fun row => row.state = .waiting with
      | some row => some (s.forkTurn { id := row.id, locks, stage := .placing })
      | none => none
  | .restart => some { s with
      lanes := .initial hearthLaneOptions
      lanesOpen := false
      calls := fun call => (s.calls call).map crashed
      turns := fun _ => none
      places := []
      dispatches := [] }
  | .restore id locks =>
      if s.lanesOpen = false ∧ s.rowIn id .running = true ∧ locks ≠ [] then
        let held := holdLanes start s id locks .system
        some (held.2.forkTurn { id, locks, restored := true, stage := .awaiting held.1 })
      else none
  | .openLanes => some { s with lanesOpen := true }
  | .others call =>
      if s.isOthers start call then (s.lanes.step call).map fun lanes => { s with lanes } else none

end StartsState

/-- The runs of Hearth over the calls under one key. -/
def startsSystem (start : DurableStart) : System StartsState StartsEvent :=
  .ofFunction (· = {}) (StartsState.next start)

end Kiln.Hearth
