import Kiln.Operations.LanesExclusion

/-!
# Calls from inside a grant

`packages/operations/src/lanes.ts`: `#start` settles the deferred its operation waits on, which
may resume the waiting fiber at once, so that the operation's effect runs, and calls the lanes,
before `#start` returns to the loop of `#grant` it was called from. `Kiln.Operations.Lanes` takes
each call as one step; here a call is a stack of frames, each the rest of one function's body,
and a call can be made while an operation just started has the turn.
-/

namespace Kiln.Operations
open Kiln.Lib OperationLanes

/-- What is left to do of a function that is on the stack. -/
inductive LaneFrame (κ : Type) where
  /-- An operation was started and may call the lanes, until it gives the turn back. -/
  | callback
  /-- `#grant`, in its loop over `#nested` (`lanes.ts:506-540`). -/
  | nested (index : Nat) (blocked : LockTable κ)
  /-- `#grant`, in its last loop, with the operations still to start (`lanes.ts:568`). -/
  | starting (chosen : List WaiterId)
  /-- `setPaused`, in its loop over `#active`, with those it is past (`lanes.ts:233-242`). -/
  | pausing (visited : List WaiterId)
  /-- `setPaused`, once its `#grant` is done. -/
  | pauseReturn
  /-- `#admit`, once its `#grant` is done (`lanes.ts:340-347`). -/
  | admitting (id : WaiterId) (whenBusy : Option (WhenBusy κ))

/-- The lanes, the fibers around them and the functions that are on the stack, innermost first. `stands` notes that a
`setPaused(true)` has returned that nobody has lifted since. -/
structure LaneMachine (κ : Type) where
  world : LaneWorld κ
  stack : List (LaneFrame κ) := []
  stands : Bool := false

/-- A call, or the next turn of the innermost function. -/
inductive LaneTurn (κ : Type) where
  | call (call : LaneCall κ)
  | go

namespace LaneMachine

variable {κ : Type} [LinearOrder κ]

/-- `#grant`, from its start. -/
def granting : LaneFrame κ := .nested 0 .empty

/-- A call can be made by nobody on the stack, or by an operation that has the turn. -/
def listening : List (LaneFrame κ) → Bool
  | [] => true
  | .callback :: _ => true
  | _ :: _ => false

/-- The machine with other lanes. -/
def withLanes (machine : LaneMachine κ) (lanes : OperationLanes κ) : LaneMachine κ :=
  { machine with world := { machine.world with lanes := lanes } }

/-- Enters the functions of a call, innermost first. -/
def enter (machine : LaneMachine κ) (frames : List (LaneFrame κ)) : LaneMachine κ :=
  { machine with stack := frames ++ machine.stack }

/-- `#admit` up to its `#grant`. -/
def beginAdmit (machine : LaneMachine κ) (admission : LaneAdmission κ) (inside : Bool) :
    LaneMachine κ :=
  let lanes := machine.world.lanes
  let id := lanes.admitted
  let waiter := makeWaiter admission inside
  match lanes.turnsAway waiter inside with
  | some error => machine.withLanes ((lanes.alloc waiter).reject id error)
  | none =>
      let lookups := match admission.locks with
        | .lookup => Function.update machine.world.lookups id true
        | .known _ => machine.world.lookups
      let world := { machine.world with
        lanes := (lanes.alloc waiter).enqueue id admission.locks
        lookups := lookups }
      { machine with world := world }.enter [granting, .admitting id admission.whenBusy]

/-- `#cancel` up to its `#grant`, which notes where it will say that it withdrew. -/
def beginCancel (machine : LaneMachine κ) (id : WaiterId) : LaneMachine κ :=
  let lanes := machine.world.lanes
  let withdrawn := Function.update machine.world.withdrawn id true
  match (lanes.waiters id).state with
  | .waiting =>
      let lanes := (lanes.remove id).reject id (withdrawnError (lanes.waiters id))
      { machine with world := { machine.world with lanes := lanes, withdrawn := withdrawn } }.enter [granting]
  | .granted =>
      { machine with
        world := { machine.world with lanes := lanes.letGo id, withdrawn := withdrawn } }.enter
        [granting]
  | _ => machine

/-- `setPaused` up to its loop over `#active`. -/
def beginPause (machine : LaneMachine κ) (paused : Bool) : LaneMachine κ :=
  let lanes := { machine.world.lanes with paused := paused }
  if !paused then { machine.withLanes lanes with stands := false }
  else (machine.withLanes lanes.pauseWaiting).enter [.pausing []]

/-- `#release` up to its `#grant`. -/
def beginRelease (machine : LaneMachine κ) (id : WaiterId) : LaneMachine κ :=
  let lanes := machine.world.lanes
  if (lanes.waiters id).state = .done then machine
  else (machine.withLanes (lanes.letGo id)).enter [granting]

/-- The first turn of a call, where it can be made. -/
def begin (machine : LaneMachine κ) : LaneCall κ → Option (LaneMachine κ)
  | .admitTicket admission => some (machine.beginAdmit admission false)
  | .runNested admission => some (machine.beginAdmit admission true)
  | .cancel id | .withdraw id =>
      if id < machine.world.lanes.admitted then some (machine.beginCancel id) else none
  | .setPaused paused => some (machine.beginPause paused)
  | .lookupSucceeded id locks =>
      if machine.world.lookups id then
        let machine := { machine with world := { machine.world with
          lookups := Function.update machine.world.lookups id false } }
        if (machine.world.lanes.waiters id).state ≠ .waiting then some machine
        else some ((machine.withLanes (machine.world.lanes.learn id locks)).enter [granting])
      else none
  | .lookupFailed id cause =>
      if machine.world.lookups id then
        let machine := { machine with world := { machine.world with
          lookups := Function.update machine.world.lookups id false } }
        if (machine.world.lanes.waiters id).state ≠ .waiting then some machine
        else
          let lanes := (machine.world.lanes.remove id).conclude id (.die cause)
          some ((machine.withLanes lanes).enter [granting])
      else none
  | .run id =>
      if id < machine.world.lanes.admitted then
        some { machine with world := { machine.world with
          awaiting := Function.update machine.world.awaiting id (machine.world.awaiting id + 1) } }
      else none
  | .resume id =>
      (machine.world.step (.resume id)).map fun world => { machine with world := world }
  | .interrupt id =>
      if 0 < machine.world.awaiting id then
        some ({ machine with world := { machine.world with
          awaiting := Function.update machine.world.awaiting id (machine.world.awaiting id - 1) } }.beginCancel id)
      else none
  | .finish id =>
      if machine.world.finished id < machine.world.started id then
        some ({ machine with world := { machine.world with
          finished := Function.update machine.world.finished id (machine.world.finished id + 1) } }.beginRelease id)
      else none

/-- The next turn of `#grant` in its loop over `#nested`, or the selection after it. -/
def goNested (machine : LaneMachine κ) (index : Nat) (blocked : LockTable κ) : LaneMachine κ :=
  let lanes := machine.world.lanes
  match lanes.nested[index]? with
  | some id =>
      match (lanes.waiters id).locks with
      | none => machine.enter [.nested (index + 1) (blocked.take [])]
      | some locks =>
          if locks.any lanes.held.conflicts then
            machine.enter [.nested (index + 1) (blocked.take locks)]
          else
            let lanes := lanes.grantFreeNested id locks
            if (lanes.waiters id).state = .granted then
              (machine.withLanes lanes).enter [.callback, .nested index blocked]
            else (machine.withLanes lanes).enter [.nested index blocked]
  | none =>
      let selection := lanes.select blocked
      let lanes := selection.dropped.foldl
        (fun lanes id => lanes.reject id (dropError (lanes.waiters id))) (takeOut selection)
      (machine.withLanes lanes).enter [.starting selection.granted]

/-- The next turn of `setPaused` in its loop over `#active`: the next it isn't past, also one
    that was added meanwhile. -/
def goPausing (machine : LaneMachine κ) (visited : List WaiterId) : LaneMachine κ :=
  let lanes := machine.world.lanes
  match lanes.active.find? (· ∉ visited) with
  | none => machine.enter [granting, .pauseReturn]
  | some id =>
      if pauseKeeps (lanes.waiters id) then machine.enter [.pausing (id :: visited)]
      else
        let refusal := lanes.pausedError (lanes.waiters id)
        let lanes := lanes.update id fun waiter => { waiter with refusal := some refusal }
        (machine.withLanes lanes).enter [.pausing (id :: visited)] |>.beginRelease id

/-- The next turn of a function that was innermost. -/
def goFrame (machine : LaneMachine κ) : LaneFrame κ → LaneMachine κ
  | .callback => machine
  | .nested index blocked => machine.goNested index blocked
  | .starting [] => machine
  | .starting (id :: chosen) =>
      (machine.withLanes (machine.world.lanes.start id)).enter [.callback, .starting chosen]
  | .pausing visited => machine.goPausing visited
  | .pauseReturn => { machine with stands := machine.world.lanes.paused }
  | .admitting id whenBusy => machine.withLanes (machine.world.lanes.settleBusy id whenBusy)

/-- A call, where the machine listens, or the next turn of the innermost function. -/
def step (machine : LaneMachine κ) : LaneTurn κ → Option (LaneMachine κ)
  | .call call => if listening machine.stack then machine.begin call else none
  | .go =>
      match machine.stack with
      | [] => none
      | frame :: rest => some ({ machine with stack := rest }.goFrame frame)

def initial (options : OperationLanesOptions κ) : LaneMachine κ :=
  { world := .initial options }

/-- The operations a selection has chosen and not started yet. They hold their locks, and are in no queue and not
active. -/
def chosenBy : LaneFrame κ → List WaiterId
  | .starting chosen => chosen
  | _ => []

def chosen (machine : LaneMachine κ) : List WaiterId :=
  machine.stack.flatMap chosenBy

end LaneMachine

/-- The runs of lanes whose operations may call them from inside a grant, turn by turn. -/
def reentrantSystem {κ : Type} [LinearOrder κ] (options : OperationLanesOptions κ) :
    System (LaneMachine κ) (LaneTurn κ) :=
  .ofFunction (· = .initial options) LaneMachine.step

end Kiln.Operations
