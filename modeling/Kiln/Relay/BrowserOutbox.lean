import Kiln.Lib.JsonText
import Kiln.Lib.Transition

/-!
# A browser's outbox

`BrowserOutbox` of apps/relay/src/browser-outbox.ts. A step is what runs without a wait: a call, the callback of the frame
that's being sent, or a check that `setImmediate` put off. The session's authority may change between two steps and within
one, so each asks for it anew. A session follows one resource, so every resource frame is of that one.
-/

namespace Kiln.Relay
open Kiln.Lib

namespace BrowserOutbox

structure OutboxItem where
  action : Option String
  bytes : Nat
  encoded : Utf16
  deriving DecidableEq

/-- `BrowserOutboxKind` -/
inductive OutboxKind where
  | console
  | priority
  | resource
  deriving DecidableEq

/-- A caller of `whenRoomFor` that waits. -/
structure RoomWaiter where
  id : Nat
  bytes : Nat
  deriving DecidableEq

structure OutboxConfig where
  maxBytes : Nat
  maxMessages : Nat

structure Outbox where
  normal : List OutboxItem := []
  priority : List OutboxItem := []
  roomWaiters : List RoomWaiter := []
  bytes : Int := 0
  closed : Bool := false
  resource : Option OutboxItem := none
  sending : Bool := false
  /-- The checks that `setImmediate` put off. -/
  immediates : Nat := 0
  /-- How many callers have waited. -/
  waited : Nat := 0
  deriving DecidableEq

/-- What a step does, in order. -/
inductive Output where
  /-- What `send` returns. -/
  | returned (accepted : Bool)
  | queued (kind : OutboxKind) (item : OutboxItem)
  /-- An item is sent, or dropped as the session isn't authorised any more. -/
  | left (kind : OutboxKind) (item : OutboxItem) (sent : Bool)
  /-- `whenRoomFor` returns a promise that's resolved, or one that waits. -/
  | room (open_ : Bool)
  | waits (id : Nat)
  | resolved (id : Nat) (open_ : Bool)
  /-- `socket.close` -/
  | closesSocket (code : Nat) (reason : String)
  deriving DecidableEq

inductive OutboxEvent where
  /-- `ready` is whether the socket is open, and `authorize` answers one call after the other. -/
  | send (ready : Bool) (authorize : Nat → Option String → Bool) (encoded : Utf16) (kind : OutboxKind) (action : Option String)
  | whenRoomFor (bytes : Nat)
  | close
  /-- The callback of `socket.send`. -/
  | sent (authorize : Nat → Option String → Bool)
  | failed (ready : Bool)
  | immediate

variable (config : OutboxConfig)

namespace Outbox

def messageCount (outbox : Outbox) : Nat :=
  outbox.priority.length + outbox.normal.length + if outbox.resource.isSome then 1 else 0

def close (outbox : Outbox) : Outbox × List Output :=
  ({ outbox with closed := true, priority := [], normal := [], resource := none, bytes := 0, roomWaiters := [] },
    outbox.roomWaiters.map fun waiter => .resolved waiter.id false)

/-- `maxBytes / 2` and `maxMessages / 2` aren't rounded. -/
def hasRoomFor (outbox : Outbox) (bytes : Nat) : Bool :=
  outbox.messageCount = 0 || 2 * (outbox.bytes + bytes) ≤ config.maxBytes && 2 * outbox.messageCount < config.maxMessages

def wakeRoomWaiter (outbox : Outbox) : Outbox × List Output :=
  match outbox.roomWaiters with
  | [] => (outbox, [])
  | waiter :: rest =>
      if outbox.closed || !outbox.hasRoomFor config waiter.bytes then (outbox, [])
      else ({ outbox with roomWaiters := rest, immediates := outbox.immediates + if rest = [] then 0 else 1 },
        [.resolved waiter.id true])

/-- `next`, with the queue it's taken from. -/
def next (outbox : Outbox) : Option (OutboxKind × OutboxItem × Outbox) :=
  match outbox.priority with
  | item :: rest => some (.priority, item, { outbox with priority := rest, bytes := outbox.bytes - item.bytes })
  | [] =>
      match outbox.normal with
      | item :: rest => some (.console, item, { outbox with normal := rest, bytes := outbox.bytes - item.bytes })
      | [] => outbox.resource.map fun item => (.resource, item, { outbox with resource := none, bytes := outbox.bytes - item.bytes })

theorem messageCount_next {outbox outbox' : Outbox} {kind : OutboxKind} {item : OutboxItem}
    (taken : outbox.next = some (kind, item, outbox')) : outbox'.messageCount < outbox.messageCount := by
  unfold next at taken
  cases first : outbox.priority with
  | cons head rest =>
    simp only [first, Option.some.injEq, Prod.mk.injEq] at taken
    obtain ⟨-, -, rfl⟩ := taken
    simp only [messageCount, first, List.length_cons]
    omega
  | nil =>
    cases second : outbox.normal with
    | cons head rest =>
      simp only [first, second, Option.some.injEq, Prod.mk.injEq] at taken
      obtain ⟨-, -, rfl⟩ := taken
      simp only [messageCount, first, second, List.length_cons, List.length_nil]
      omega
    | nil =>
      cases third : outbox.resource with
      | none => simp only [first, second, third, Option.map_none, reduceCtorEq] at taken
      | some resource =>
        simp only [first, second, third, Option.map_some, Option.some.injEq, Prod.mk.injEq] at taken
        obtain ⟨-, -, rfl⟩ := taken
        simp [messageCount, first, second, third]

/-- `drain`, from a call of `authorize` on. -/
def drain (authorize : Nat → Option String → Bool) (call : Nat) (outbox : Outbox) : Outbox × List Output :=
  if outbox.sending || outbox.closed then (outbox, [])
  else match _taken : outbox.next with
    | none => outbox.wakeRoomWaiter config
    | some (kind, item, outbox) =>
        if authorize call item.action then ({ outbox with sending := true }, [.left kind item true])
        else ((drain authorize (call + 1) outbox).1, .left kind item false :: (drain authorize (call + 1) outbox).2)
termination_by outbox.messageCount
decreasing_by all_goals exact messageCount_next _taken

/-- `overflow`, of an outbox whose socket is open if it's `ready` -/
def overflow (ready : Bool) (outbox : Outbox) : Outbox × List Output :=
  (outbox.close.1, outbox.close.2 ++ if ready then [.closesSocket 1013 "Browser is not consuming messages"] else [])

def push (outbox : Outbox) (kind : OutboxKind) (item : OutboxItem) : Outbox :=
  match kind with
  | .resource =>
      { outbox with
        bytes := outbox.bytes - ((outbox.resource.map (·.bytes)).getD 0 : Nat) + item.bytes
        resource := some item }
  | .priority => { outbox with priority := outbox.priority ++ [item], bytes := outbox.bytes + item.bytes }
  | .console => { outbox with normal := outbox.normal ++ [item], bytes := outbox.bytes + item.bytes }

def send (ready : Bool) (authorize : Nat → Option String → Bool) (encoded : Utf16) (kind : OutboxKind)
    (action : Option String) (outbox : Outbox) : Outbox × List Output :=
  if outbox.closed || !ready || !authorize 0 action then (outbox, [.returned false])
  else
    let item : OutboxItem := ⟨action, Utf16.byteLength encoded, encoded⟩
    if config.maxBytes < item.bytes then
      ((outbox.overflow ready).1, (outbox.overflow ready).2 ++ [.returned false])
    else
      let pushed := outbox.push kind item
      if config.maxBytes < pushed.bytes ∨ config.maxMessages < pushed.messageCount then
        ((pushed.overflow ready).1, .queued kind item :: (pushed.overflow ready).2 ++ [.returned false])
      else ((pushed.drain config authorize 1).1, .queued kind item :: (pushed.drain config authorize 1).2 ++ [.returned true])

def whenRoomFor (bytes : Nat) (outbox : Outbox) : Outbox × List Output :=
  if outbox.closed then (outbox, [.room false])
  else if outbox.roomWaiters = [] ∧ outbox.hasRoomFor config bytes = true then (outbox, [.room true])
  else ({ outbox with roomWaiters := outbox.roomWaiters ++ [⟨outbox.waited, bytes⟩], waited := outbox.waited + 1 },
    [.waits outbox.waited])

/-- The callback of a frame that was sent. -/
def sent (authorize : Nat → Option String → Bool) (outbox : Outbox) : Outbox × List Output :=
  let woken := { outbox with sending := false }.wakeRoomWaiter config
  ((woken.1.drain config authorize 0).1, woken.2 ++ (woken.1.drain config authorize 0).2)

/-- The callback of a frame that couldn't be sent. -/
def failed (ready : Bool) (outbox : Outbox) : Outbox × List Output :=
  ({ outbox with sending := false, closed := true }, if ready then [.closesSocket 1013 "Browser delivery failed"] else [])

/-- One step, where it can be taken. -/
def step (outbox : Outbox) : OutboxEvent → Option (Outbox × List Output)
  | .send ready authorize encoded kind action => some (outbox.send config ready authorize encoded kind action)
  | .whenRoomFor bytes => some (outbox.whenRoomFor config bytes)
  | .close => some outbox.close
  | .sent authorize => if outbox.sending then some (outbox.sent config authorize) else none
  | .failed ready => if outbox.sending then some (outbox.failed ready) else none
  | .immediate =>
      if 0 < outbox.immediates then
        some ({ outbox with immediates := outbox.immediates - 1 }.wakeRoomWaiter config)
      else none

end Outbox

/-- An outbox, and all it has done. -/
structure OutboxStory where
  outbox : Outbox := {}
  outputs : List Output := []

def OutboxStory.next (story : OutboxStory) (event : OutboxEvent) : Option OutboxStory :=
  (story.outbox.step config event).map fun result => ⟨result.1, story.outputs ++ result.2⟩

/-- The runs of an outbox. -/
def outboxRuns : System OutboxStory OutboxEvent := .ofFunction (· = {}) (OutboxStory.next config)

/-! ## What's expected of an outbox -/

/-- The frames of a kind that were queued, in order. -/
def arrivals (kind : OutboxKind) (outputs : List Output) : List OutboxItem :=
  outputs.filterMap fun
    | .queued kind' item => if kind' = kind then some item else none
    | _ => none

/-- The frames of a kind that were taken out, in order. -/
def departures (kind : OutboxKind) (outputs : List Output) : List OutboxItem :=
  outputs.filterMap fun
    | .left kind' item _ => if kind' = kind then some item else none
    | _ => none

def waiting (outputs : List Output) : List Nat :=
  outputs.filterMap fun
    | .waits id => some id
    | _ => none

def resolutions (outputs : List Output) : List Nat :=
  outputs.filterMap fun
    | .resolved id _ => some id
    | _ => none

def Outbox.queue (outbox : Outbox) : OutboxKind → List OutboxItem
  | .console => outbox.normal
  | .priority => outbox.priority
  | .resource => outbox.resource.toList

def totalBytes (items : List OutboxItem) : Int := (items.map fun item => (item.bytes : Int)).sum

/-- The counter and the limits hold, and frames of a class leave in the order they came. Of resource frames only the latest
is kept. -/
structure Accounted (story : OutboxStory) : Prop where
  bytes : story.outbox.bytes = totalBytes story.outbox.priority + totalBytes story.outbox.normal +
    totalBytes story.outbox.resource.toList
  withinBytes : story.outbox.bytes ≤ config.maxBytes
  withinMessages : story.outbox.messageCount ≤ config.maxMessages
  inOrder : ∀ kind, kind ≠ .resource →
    departures kind story.outputs ++ story.outbox.queue kind <+: arrivals kind story.outputs
  noneLost : ∀ kind, kind ≠ .resource → story.outbox.closed = false →
    departures kind story.outputs ++ story.outbox.queue kind = arrivals kind story.outputs
  resources : List.Sublist (departures .resource story.outputs ++ story.outbox.resource.toList) (arrivals .resource story.outputs)
  latest : story.outbox.closed = false →
    (departures .resource story.outputs ++ story.outbox.resource.toList).getLast? = (arrivals .resource story.outputs).getLast?

/-- Nothing is sent once it's closed, what's sent is authorised, and nothing leaves before what comes first. -/
structure SentProperly (outbox after : Outbox) (event : OutboxEvent) (outputs : List Output) : Prop where
  open_ : outbox.closed = true → ∀ kind item, .left kind item true ∉ outputs
  authorised : ∀ kind item, .left kind item true ∈ outputs → ∃ authorize call, authorize call item.action = true ∧
    (event = .sent authorize ∨ ∃ ready encoded kind action, event = .send ready authorize encoded kind action)
  priorityFirst : ∀ item sent, .left .console item sent ∈ outputs → after.priority = []
  resourceLast : ∀ item sent, .left .resource item sent ∈ outputs → after.priority = [] ∧ after.normal = []

/-- Every caller that waited has been answered. -/
def AllResolved (story : OutboxStory) : Prop := resolutions story.outputs = waiting story.outputs

end BrowserOutbox

end Kiln.Relay
