import Kiln.Relay.JournalHistory

/-!
# A change and the connection it goes over

`apps/web/src/lib/relay-connection.ts` (`request`, `#rejectPending`, `#watchUnsettled`,
`#settleUnsettled`) over the sessions of a Relay and its journal
(`apps/relay/src/control-socket.ts:621-751`). A change waits in `#pending` for its answer; as its
connection drops it waits in `#unsettled`, and a loop asks the Relay how it went. The frames of a
session come in order, but the Relay may still read those of a session Hearth has left.

Requests, lookups and the Relay's own are numbered in the order they are made, as are sessions.
-/

namespace Kiln.Hearth
open Kiln.Lib Kiln.Relay

/-- `RelayJournal` of `relay-connection.ts`: the pairing a change was sent by, and the journal it went to. The journals
a Relay makes are numbered. -/
structure ChangeJournal where
  clientId : ClientId
  journalId : Nat
  deriving DecidableEq

/-- What a caller's effect fails with. -/
structure RelayUnavailableError where
  code : Option String := none
  message : String
  outcomeUnknown : Bool := false
  retryable : Option Bool := none
  deriving DecidableEq, Repr

/-- What the caller of a change is resumed with. -/
inductive RequestAnswer where
  /-- The Relay's own reply. -/
  | response (payload : String)
  | error (failure : ControlFailure)
  | notSent (cause : String)
  /-- Told by a lookup. -/
  | succeeded (result : Option String)
  | failed (failure : ControlFailure)
  | withdrawn
  | unreached
  | forgotten
  | restarted
  /-- How it went isn't known. -/
  | dropped
  | closed
  | timedOut
  deriving DecidableEq, Repr

namespace RequestAnswer

/-- `relayConnectionFailure` (`relay-connection.ts:2747-2757`). -/
def relayConnectionFailure (message : String) : Except RelayUnavailableError (Option String) :=
  .error { message := message }

/-- `unknownOutcome` (`relay-connection.ts:2735-2745`). -/
def unknownOutcome (message : String) : Except RelayUnavailableError (Option String) :=
  .error { message := message, outcomeUnknown := true, retryable := some false }

/-- `relayControlFailureError` (`relay-control-errors.ts:5-14`), but for the request's ID. -/
def relayControlFailureError (failure : ControlFailure) :
    Except RelayUnavailableError (Option String) :=
  .error { code := some failure.code, message := failure.message, retryable := some failure.retryable }

/-- What each answer says (`relay-connection.ts:1180-1189`, `1211-1216`, `2123-2131`, `2167-2247`). -/
def effect : RequestAnswer → Except RelayUnavailableError (Option String)
  | response payload => .ok (some payload)
  | error failure => relayControlFailureError failure
  | notSent cause =>
      relayConnectionFailure (if cause = "" then "Relay request could not be sent" else cause)
  | succeeded (some result) => .ok (some result)
  | succeeded none =>
      .error
        { code := some "result_unavailable"
          message := "The change went through, but its result is no longer available. Refresh to see it."
          retryable := some false }
  | failed failure => relayControlFailureError failure
  | withdrawn =>
      relayConnectionFailure "The connection to this Relay dropped before the change ran. It didn't run."
  | unreached =>
      relayConnectionFailure "The connection to this Relay dropped before the change reached it. It didn't run."
  | forgotten =>
      unknownOutcome
        "This Relay was paired again or its state rebuilt before it reported how the change went. Check the result before trying again."
  | restarted =>
      unknownOutcome "This Relay restarted while running the change. Check the result before trying again."
  | dropped =>
      unknownOutcome
        "The connection to this Relay dropped before it answered, and it hasn't reported how the change went. Check the result before trying again."
  | closed =>
      unknownOutcome
        "Hearth closed its connection to this Relay before the change finished. Check the result before trying again."
  | timedOut =>
      unknownOutcome
        "The Relay didn't finish this in time. It may still finish, so check the result before trying again."

end RequestAnswer

/-- How a lookup that doesn't find the change running settles it (`relay-connection.ts:2211-2246`). -/
def settledBy : OperationLookup → Option RequestAnswer
  | .running => none
  | .succeeded result => some (.succeeded result)
  | .failed failure =>
      some (if failure.code = "operation_withdrawn" then .withdrawn else .failed failure)
  | .unknown => some .unreached
  | .interrupted => some .restarted

/-! ## Hearth's side -/

/-- `PendingRequest` (`relay-connection.ts:2701-2710`), and the session it was sent in. The caller it resumes is the one
of its number. A lookup has no operation ID. -/
structure PendingRequest where
  deadline : Nat
  operationId : Option String
  journal : ChangeJournal
  session : Nat
  deriving DecidableEq

/-- `UnsettledChange` (`relay-connection.ts:2712-2716`), with the caller it resumes. -/
structure UnsettledChange where
  deadline : Nat
  journal : ChangeJournal
  caller : Nat
  deriving DecidableEq

/-- A socket that authenticated, with the client and the journal it did for. -/
structure ControlSocket where
  session : Nat
  journal : ChangeJournal
  /-- Whether its `readyState` is `OPEN`. -/
  isOpen : Bool
  deriving DecidableEq

/-- One pass of `#settleUnsettled`: the changes still to come, and the lookup it awaits. -/
structure SettlePass where
  now : Nat
  rest : List (String × UnsettledChange)
  lookup : Option (Nat × String × UnsettledChange) := none
  deriving DecidableEq

/-- `RelayConnection`, as far as its changes go. `socket` is there while its state is `authenticated`. -/
structure RelayConnection where
  closed : Bool := false
  socket : Option ControlSocket := none
  pending : OrderedMap Nat PendingRequest := .empty
  unsettled : OrderedMap String UnsettledChange := .empty
  settling : Bool := false
  pass : Option SettlePass := none

inductive CallerState where
  | waiting
  | told (answer : RequestAnswer)
  | interrupted
  deriving DecidableEq

/-- A caller of `request`, with the change it sent and the journal it is for. -/
structure Caller where
  request : ChangeRequest
  journal : ChangeJournal
  state : CallerState := .waiting
  deriving DecidableEq

/-- `resume`: an `Effect.callback` is resumed once, and takes no second answer. -/
def Caller.resume (caller : Caller) (answer : RequestAnswer) : Caller :=
  if caller.state = .waiting then { caller with state := .told answer } else caller

/-! ## The Relay's side -/

/-- A request frame. -/
inductive ControlFrame where
  | change (id : Nat) (request : ChangeRequest) (journalId : Option Nat)
  | lookup (id : Nat) (command : CommandId) (journalId : Nat)
  deriving DecidableEq

def ControlFrame.id : ControlFrame → Nat
  | change id _ _ => id
  | lookup id _ _ => id

def ControlFrame.journalId : ControlFrame → Option Nat
  | change _ _ journalId => journalId
  | lookup _ _ journalId => some journalId

/-- What the journal is asked by a frame. -/
def ControlFrame.journaled : ControlFrame → Nat → JournalEvent
  | change id request _, now => .request id request now
  | lookup id command _, now => .lookup id command now

/-- Why a request is refused before the journal sees it (`control-socket.ts:621-667`,
    `853-861`, `881-910`, `961-980`). -/
inductive RequestRefusal where
  | inFlightLimit
  | journalChanged
  | invalidMessage
  | invalidTimeout
  | forbidden
  | paused
  | unchecked (message : String) (aborted : Bool)
  deriving DecidableEq

def RequestRefusal.failure : RequestRefusal → ControlFailure
  | inFlightLimit => ⟨"too_many_requests", "Too many requests are in flight", true⟩
  | journalChanged =>
      ⟨"journal_changed", "This Relay's state was rebuilt since that change was sent", false⟩
  | invalidMessage => ⟨"invalid_message", "Invalid control request", false⟩
  | invalidTimeout => ⟨"invalid_timeout", "Request timeout is invalid", false⟩
  | forbidden => ⟨"forbidden", "Relay permission denied", false⟩
  | paused => ⟨"relay_paused", "This Relay is paused", false⟩
  | unchecked message aborted => controlFailureFor (.unexpected message) aborted

/-- What the Relay sends in answer to a request. -/
inductive ServerMessage where
  | reply (reply : Reply)
  | lookup (lookup : OperationLookup)
  deriving DecidableEq

/-! ## Both together -/

/-- What a caller is resumed with by the Relay's own reply. -/
def RequestAnswer.ofReply : Reply → RequestAnswer
  | .response payload => .response payload
  | .error failure => .error failure

/-- A Hearth's connection to a Relay. Of the frames in the Relay's sessions, oldest first, `unread` are those it hasn't
read, and `taken` those whose client it is still checking; `lost` are those no session will read. `asked` notes the
caller each lookup is for, and `earlier` the history of the journals the Relay had before this one. -/
structure ControlLink where
  hearth : RelayConnection := {}
  callers : Nat → Option Caller := fun _ => none
  asked : Nat → Option Nat := fun _ => none
  sessions : List Nat := []
  unread : List (Nat × ControlFrame) := []
  taken : List (Nat × ControlFrame) := []
  lost : List Nat := []
  relay : JournalHistory := {}
  journalId : Nat := 0
  earlier : List JournalHistory := []
  replies : Nat → Option ServerMessage := fun _ => none
  nextId : Nat := 0
  nextSession : Nat := 0

/-- What can happen at either end. -/
inductive LinkEvent where
  /-- `auth.ready` on a new socket. -/
  | connect (clientId : ClientId)
  /-- The socket stops being open, and is still to say that it closed. -/
  | closing
  /-- Another socket is begun before that (`#beginSocket`). -/
  | beginSocket
  /-- The socket closed, or another one replaced it. -/
  | dropped
  | close
  /-- A change is asked for, beside this many other requests that aren't changes. -/
  | request (operationId operation digest : String) (envelope deadline others : Nat) (journal : Option ChangeJournal)
  | sendFailed (id : Nat) (cause : String)
  | receive (id : Nat)
  | timeout (id : Nat)
  | interrupt (id : Nat)
  | pass (now : Nat)
  | overdue
  | ask (others : Nat)
  | skip
  | receiveLookup
  | lookupFailed
  | rest
  | read (session : Nat)
  | refuse (session : Nat) (frame : ControlFrame) (refusal : RequestRefusal)
  | proceed (session : Nat) (frame : ControlFrame) (now : Nat)
  | send (id : Nat)
  | hangUp (session : Nat)
  | journal (e : JournalEvent)
  | restart (now : Nat)
  /-- The Relay restarts with a new journal. -/
  | rebuild

namespace ControlLink

/-- Resumes a caller. -/
def resume (s : ControlLink) (id : Nat) (answer : RequestAnswer) : ControlLink :=
  { s with callers := Function.update s.callers id ((s.callers id).map (·.resume answer)) }

def putSocket (s : ControlLink) (socket : Option ControlSocket) : ControlLink :=
  let hearth := s.hearth
  { s with hearth := { hearth with socket := socket } }

def putPass (s : ControlLink) (pass : Option SettlePass) : ControlLink :=
  let hearth := s.hearth
  { s with hearth := { hearth with pass := pass } }

def putSettling (s : ControlLink) (settling : Bool) : ControlLink :=
  let hearth := s.hearth
  { s with hearth := { hearth with settling := settling } }

/-- A request of a connection is over. -/
def unpend (s : ControlLink) (id : Nat) : ControlLink :=
  let hearth := s.hearth
  { s with hearth := { hearth with pending := hearth.pending.delete id } }

/-- The Relay answers a request. -/
def reply (s : ControlLink) (id : Nat) (message : ServerMessage) : ControlLink :=
  { s with replies := Function.update s.replies id (some message) }

/-- Adds a frame to those of a session, if the Relay still has it. -/
def send (s : ControlLink) (session : Nat) (frame : ControlFrame) : ControlLink :=
  if session ∈ s.sessions then { s with unread := s.unread ++ [(session, frame)] }
  else { s with lost := s.lost ++ [frame.id] }

/-- `request` for a change (`relay-connection.ts:1105-1230`), where it is sent at all. The journal it may name is one
the Relay had. -/
def request (s : ControlLink) (operationId operation digest : String)
    (envelope deadline others : Nat) (journal : Option ChangeJournal) : Option ControlLink :=
  match s.hearth.socket with
  | none => none
  | some socket =>
      if !socket.isOpen then none
      else if journal.any (fun sent => sent.clientId ≠ socket.journal.clientId) then none
      else if journal.any (fun sent => s.journalId < sent.journalId) then none
      else if 32 ≤ s.hearth.pending.size + others then none
      else
        let id := s.nextId
        let request : ChangeRequest :=
          ⟨⟨socket.journal.clientId, operationId⟩, operation, digest, envelope⟩
        let sent := journal.getD socket.journal
        let hearth := s.hearth
        some ({ s with
          hearth := { hearth with
            pending := hearth.pending.set id ⟨deadline, some operationId, sent, socket.session⟩ }
          callers := Function.update s.callers id (some ⟨request, sent, .waiting⟩)
          nextId := id + 1 }.send
          socket.session (.change id request (journal.map ChangeJournal.journalId)))

/-- One request that can't answer any more (`relay-connection.ts:2115-2131`). -/
def rejectOne (s : ControlLink) (entry : Nat × PendingRequest) : ControlLink :=
  match entry.2.operationId with
  | none => s
  | some operationId =>
      if s.hearth.closed then s.resume entry.1 .closed
      else
        let hearth := s.hearth
        { s with
          hearth := { hearth with
            unsettled := hearth.unsettled.set operationId ⟨entry.2.deadline, entry.2.journal, entry.1⟩ } }

/-- `#rejectPending` (`relay-connection.ts:2114-2135`). -/
def rejectPending (s : ControlLink) : ControlLink :=
  let s := s.hearth.pending.entries.foldl rejectOne s
  let hearth := s.hearth
  { s with
    hearth := { hearth with
      pending := .empty
      settling := hearth.settling || 0 < hearth.unsettled.size } }

def resumeClosed (s : ControlLink) (entry : String × UnsettledChange) : ControlLink :=
  s.resume entry.2.caller .closed

/-- `close` (`relay-connection.ts:1263-1302`). -/
def close (s : ControlLink) : ControlLink :=
  let hearth := s.hearth
  let s := { s with hearth := { hearth with closed := true, socket := none } }.rejectPending
  let s := s.hearth.unsettled.entries.foldl resumeClosed s
  let hearth := s.hearth
  { s with hearth := { hearth with unsettled := .empty } }

/-- The caller gives up: its entries go (`relay-connection.ts:1188-1203`). The cancel it sends only withdraws what still
waits, which the lanes may do at any time here. -/
def abandon (s : ControlLink) (id : Nat) (operationId : String) : ControlLink :=
  let hearth := s.hearth
  { s with
    hearth := { hearth with
      pending := hearth.pending.delete id
      unsettled := hearth.unsettled.delete operationId } }

/-- A change is settled (`relay-connection.ts:2210-2247`). -/
def settle (s : ControlLink) (operationId : String) (change : UnsettledChange) (answer : RequestAnswer) : ControlLink :=
  let hearth := s.hearth
  { s with
    hearth := { hearth with unsettled := hearth.unsettled.delete operationId } }.resume
    change.caller answer

/-- The lookup of the next change of a pass (`relay-connection.ts:2177-2208`). -/
def ask (s : ControlLink) (pass : SettlePass) (operationId : String) (change : UnsettledChange)
    (rest : List (String × UnsettledChange)) (socket : ControlSocket) (others : Nat) :
    ControlLink :=
  if change.journal.clientId ≠ socket.journal.clientId then
    (s.putPass (some { pass with rest := rest })).settle operationId change .forgotten
  else if 32 ≤ s.hearth.pending.size + others then s.putPass (some { pass with rest := rest })
  else
    let id := s.nextId
    let hearth := s.hearth
    { s with
      hearth := { hearth with
        pending := hearth.pending.set id ⟨pass.now, none, change.journal, socket.session⟩
        pass := some { pass with rest := rest, lookup := some (id, operationId, change) } }
      asked := Function.update s.asked id (some change.caller)
      nextId := id + 1 }.send
      socket.session
      (.lookup id ⟨socket.journal.clientId, operationId⟩ change.journal.journalId)

/-- The lookup of a pass is answered (`relay-connection.ts:2204-2247`). -/
def answered (s : ControlLink) (pass : SettlePass) (id : Nat) (operationId : String)
    (change : UnsettledChange) (message : ServerMessage) : ControlLink :=
  let s := (s.unpend id).putPass (some { pass with lookup := none })
  match message with
  | .lookup lookup =>
      match settledBy lookup with
      | none => s
      | some answer => s.settle operationId change answer
  | .reply (.error failure) =>
      if failure.code = "journal_changed" then s.settle operationId change .forgotten else s
  | .reply (.response _) => s

/-- The Relay's end of every session goes, with the frames it hasn't read. -/
def hangUpAll (s : ControlLink) : ControlLink :=
  { s with
    sessions := []
    unread := []
    taken := []
    lost := s.lost ++ s.unread.map (·.2.id) }

/-- The Relay's answer to a request or a lookup of a session that is still there. -/
def answerOf (s : ControlLink) (id : Nat) : Option ServerMessage :=
  match s.relay.journal.requests id, s.relay.journal.lookups id with
  | some ⟨_, .answered reply⟩, _ => some (.reply reply)
  | _, some ⟨_, .answered lookup⟩ => some (.lookup lookup)
  | _, some ⟨_, .failed failure⟩ => some (.reply (.error failure))
  | _, _ => none

/-- What happens at the journal of its own accord, or for another session. -/
def journalStep (s : ControlLink) (e : JournalEvent) : Option ControlLink :=
  match e with
  | .restart _ => none
  | .request r _ _ | .lookup r _ _ =>
      if r = s.nextId then
        (s.relay.next e).map fun relay => { s with relay := relay, nextId := s.nextId + 1 }
      else none
  | _ => (s.relay.next e).map fun relay => { s with relay := relay }

/-- The step an event makes, where it can happen. -/
def next (s : ControlLink) : LinkEvent → Option ControlLink
  | .connect clientId =>
      if s.hearth.closed || s.hearth.socket.isSome then none
      else
        some { s.putSocket (some ⟨s.nextSession, ⟨clientId, s.journalId⟩, true⟩) with
          sessions := s.nextSession :: s.sessions
          nextSession := s.nextSession + 1 }
  | .closing =>
      s.hearth.socket.map fun socket => s.putSocket (some { socket with isOpen := false })
  | .beginSocket =>
      match s.hearth.socket with
      | none => none
      | some socket =>
          if socket.isOpen then none else some (s.putSocket none)
  | .dropped =>
      if s.hearth.socket.isNone then none else some (s.putSocket none).rejectPending
  | .close => some s.close
  | .request operationId operation digest envelope deadline others journal =>
      s.request operationId operation digest envelope deadline others journal
  | .sendFailed id cause =>
      -- The frame was never handed over whole, so no session reads it.
      if id ∈ s.lost ∨ id ∈ s.unread.map (·.2.id) then
        some ({ s.unpend id with
          unread := s.unread.filter (·.2.id ≠ id)
          lost := s.lost ++ [id] }.resume id (.notSent cause))
      else none
  | .receive id =>
      match s.hearth.pending.get id, s.hearth.socket, s.replies id with
      | some pending, some socket, some (.reply reply) =>
          if pending.session = socket.session ∧ pending.operationId.isSome then
            some ((s.unpend id).resume id (.ofReply reply))
          else none
      | _, _, _ => none
  | .timeout id =>
      match s.callers id with
      | some ⟨request, _, .waiting⟩ =>
          some ((s.abandon id request.command.operationId).resume id .timedOut)
      | _ => none
  | .interrupt id =>
      match s.callers id with
      | some ⟨request, journal, .waiting⟩ =>
          some { s.abandon id request.command.operationId with
            callers := Function.update s.callers id (some ⟨request, journal, .interrupted⟩) }
      | _ => none
  | .pass now =>
      if s.hearth.settling ∧ s.hearth.pass = none ∧ 0 < s.hearth.unsettled.size ∧ !s.hearth.closed then
        some (s.putPass (some { now := now, rest := s.hearth.unsettled.entries }))
      else none
  | .overdue =>
      match s.hearth.pass with
      | some ⟨now, (operationId, change) :: rest, none⟩ =>
          if change.deadline ≤ now then
            some ((s.putPass (some ⟨now, rest, none⟩)).settle operationId change .dropped)
          else none
      | _ => none
  | .ask others =>
      match s.hearth.pass, s.hearth.socket with
      | some ⟨now, (operationId, change) :: rest, none⟩, some socket =>
          if now < change.deadline ∧ socket.isOpen then
            some (s.ask ⟨now, (operationId, change) :: rest, none⟩ operationId change rest socket others)
          else none
      | _, _ => none
  | .skip =>
      match s.hearth.pass with
      | some ⟨now, (_, change) :: rest, none⟩ =>
          if now < change.deadline then some (s.putPass (some ⟨now, rest, none⟩)) else none
      | _ => none
  | .receiveLookup =>
      match s.hearth.pass, s.hearth.socket with
      | some ⟨now, rest, some (id, operationId, change)⟩, some socket =>
          match s.hearth.pending.get id, s.replies id with
          | some pending, some message =>
              if pending.session = socket.session then
                some (s.answered ⟨now, rest, none⟩ id operationId change message)
              else none
          | _, _ => none
      | _, _ => none
  | .lookupFailed =>
      match s.hearth.pass with
      | some ⟨now, rest, some (id, _, _)⟩ =>
          some ((s.unpend id).putPass (some ⟨now, rest, none⟩))
      | _ => none
  | .rest =>
      match s.hearth.pass with
      | some ⟨_, [], none⟩ =>
          some ((s.putPass none).putSettling (0 < s.hearth.unsettled.size && !s.hearth.closed))
      | _ => none
  | .read session =>
      match s.unread.find? (·.1 = session) with
      | some (open', frame) =>
          let unread := s.unread.erase (open', frame)
          if frame.journalId.any (· ≠ s.journalId) then
            some ({ s with unread := unread }.reply frame.id (.reply (.error RequestRefusal.journalChanged.failure)))
          else some { s with unread := unread, taken := s.taken ++ [(open', frame)] }
      | none => none
  | .refuse session frame refusal =>
      if (session, frame) ∈ s.taken then
        some ({ s with taken := s.taken.erase (session, frame) }.reply frame.id (.reply (.error refusal.failure)))
      else none
  | .proceed session frame now =>
      if (session, frame) ∈ s.taken then
        (s.relay.next (frame.journaled now)).map fun relay =>
          { s with relay := relay, taken := s.taken.erase (session, frame) }
      else none
  | .send id =>
      (s.answerOf id).map fun message => s.reply id message
  | .hangUp session =>
      if session ∈ s.sessions then
        some { s with
          sessions := s.sessions.erase session
          unread := s.unread.filter (·.1 ≠ session)
          taken := s.taken.filter (·.1 ≠ session)
          lost := s.lost ++ (s.unread.filter (·.1 = session)).map (·.2.id) }
      else none
  | .journal e => s.journalStep e
  | .restart now =>
      (s.relay.next (.restart now)).map fun relay => { s.hangUpAll with relay := relay }
  | .rebuild =>
      some { s.hangUpAll with
        relay := {}
        journalId := s.journalId + 1
        earlier := s.relay :: s.earlier }

/-- A connection nobody has used, and every run from there. -/
def system : System ControlLink LinkEvent :=
  .ofFunction (· = {}) next

/-- `s.Stepped e s'`: the step an event makes, with what it needs of the state before. -/
inductive Stepped (s : ControlLink) : LinkEvent → ControlLink → Prop where
  | connect {clientId} (free : s.hearth.socket = none) : Stepped s (.connect clientId)
        { s.putSocket (some ⟨s.nextSession, ⟨clientId, s.journalId⟩, true⟩) with
          sessions := s.nextSession :: s.sessions
          nextSession := s.nextSession + 1 }
  | closing {socket} (held : s.hearth.socket = some socket) :
      Stepped s .closing (s.putSocket (some { socket with isOpen := false }))
  | beginSocket : Stepped s .beginSocket (s.putSocket none)
  | dropped : Stepped s .dropped (s.putSocket none).rejectPending
  | close : Stepped s .close s.close
  | request {operationId operation digest envelope deadline others journal s'}
      (sent : s.request operationId operation digest envelope deadline others journal = some s') :
      Stepped s (.request operationId operation digest envelope deadline others journal) s'
  | sendFailed {id cause} (unsent : id ∈ s.lost ∨ id ∈ s.unread.map (·.2.id)) : Stepped s (.sendFailed id cause)
        ({ s.unpend id with
          unread := s.unread.filter (·.2.id ≠ id)
          lost := s.lost ++ [id] }.resume id (.notSent cause))
  | receive {id pending reply} (awaited : s.hearth.pending.get id = some pending)
      (change : pending.operationId.isSome) (answered : s.replies id = some (.reply reply)) :
      Stepped s (.receive id) ((s.unpend id).resume id (.ofReply reply))
  | timeout {id request journal} (waits : s.callers id = some ⟨request, journal, .waiting⟩) :
      Stepped s (.timeout id) ((s.abandon id request.command.operationId).resume id .timedOut)
  | interrupt {id request journal} (waits : s.callers id = some ⟨request, journal, .waiting⟩) :
      Stepped s (.interrupt id)
        { s.abandon id request.command.operationId with
          callers := Function.update s.callers id (some ⟨request, journal, .interrupted⟩) }
  | pass {now} (idle : s.hearth.pass = none) :
      Stepped s (.pass now) (s.putPass (some { now := now, rest := s.hearth.unsettled.entries }))
  | overdue {now operationId change rest} (walks : s.hearth.pass = some ⟨now, (operationId, change) :: rest, none⟩) :
      Stepped s .overdue ((s.putPass (some ⟨now, rest, none⟩)).settle operationId change .dropped)
  | ask {others now operationId change rest socket}
      (walks : s.hearth.pass = some ⟨now, (operationId, change) :: rest, none⟩)
      (held : s.hearth.socket = some socket) :
      Stepped s (.ask others) (s.ask ⟨now, (operationId, change) :: rest, none⟩ operationId change rest socket others)
  | skip {now entry rest} (walks : s.hearth.pass = some ⟨now, entry :: rest, none⟩) :
      Stepped s .skip (s.putPass (some ⟨now, rest, none⟩))
  | receiveLookup {now rest id operationId change message}
      (walks : s.hearth.pass = some ⟨now, rest, some (id, operationId, change)⟩)
      (answered : s.replies id = some message) :
      Stepped s .receiveLookup (s.answered ⟨now, rest, none⟩ id operationId change message)
  | lookupFailed {now rest id operationId change}
      (walks : s.hearth.pass = some ⟨now, rest, some (id, operationId, change)⟩) :
      Stepped s .lookupFailed ((s.unpend id).putPass (some ⟨now, rest, none⟩))
  | rest {now settling} (walks : s.hearth.pass = some ⟨now, [], none⟩) :
      Stepped s .rest ((s.putPass none).putSettling settling)
  | turnAway {session open' frame} (unread : (open', frame) ∈ s.unread) : Stepped s (.read session)
        ({ s with unread := s.unread.erase (open', frame) }.reply frame.id
          (.reply (.error RequestRefusal.journalChanged.failure)))
  | read {session open' frame} (unread : (open', frame) ∈ s.unread)
      (same : ∀ journalId ∈ frame.journalId, journalId = s.journalId) :
      Stepped s (.read session)
        { s with
          unread := s.unread.erase (open', frame)
          taken := s.taken ++ [(open', frame)] }
  | refuse {session frame refusal} (taken : (session, frame) ∈ s.taken) : Stepped s (.refuse session frame refusal)
        ({ s with taken := s.taken.erase (session, frame) }.reply frame.id (.reply (.error refusal.failure)))
  | proceed {session frame now relay} (taken : (session, frame) ∈ s.taken)
      (step : s.relay.next (frame.journaled now) = some relay) :
      Stepped s (.proceed session frame now)
        { s with relay := relay, taken := s.taken.erase (session, frame) }
  | send {id message} (answered : s.answerOf id = some message) : Stepped s (.send id) (s.reply id message)
  | hangUp {session} : Stepped s (.hangUp session)
        { s with
          sessions := s.sessions.erase session
          unread := s.unread.filter (·.1 ≠ session)
          taken := s.taken.filter (·.1 ≠ session)
          lost := s.lost ++ (s.unread.filter (·.1 = session)).map (·.2.id) }
  | journal {e s'} (step : s.journalStep e = some s') : Stepped s (.journal e) s'
  | restart {now relay} (step : s.relay.next (.restart now) = some relay) :
      Stepped s (.restart now) { s.hangUpAll with relay := relay }
  | rebuild : Stepped s .rebuild
        { s.hangUpAll with
          relay := {}
          journalId := s.journalId + 1
          earlier := s.relay :: s.earlier }

/-- Every step is one of those. -/
theorem stepped_of_next {s s' : ControlLink} {e : LinkEvent} (step : s.next e = some s') :
    s.Stepped e s' := by
  cases e with
  | connect clientId =>
    simp only [next] at step
    split at step
    · cases step
    · rename_i free
      cases step
      simp only [Bool.or_eq_true, not_or, Option.isSome_iff_ne_none, ne_eq, not_not] at free
      exact .connect free.2
  | closing =>
    obtain ⟨socket, held, rfl⟩ := Option.map_eq_some_iff.mp step
    exact .closing held
  | beginSocket =>
    simp only [next] at step
    split at step
    · cases step
    · split at step
      · cases step
      · cases step
        exact .beginSocket
  | dropped =>
    simp only [next] at step
    split at step
    · cases step
    · cases step
      exact .dropped
  | close =>
    cases step
    exact .close
  | request => exact .request step
  | sendFailed =>
    simp only [next] at step
    split at step
    · rename_i unsent
      cases step
      exact .sendFailed unsent
    · cases step
  | receive =>
    simp only [next] at step
    split at step
    · split at step
      · rename_i awaited _ answered here
        cases step
        exact .receive awaited here.2 answered
      · cases step
    · cases step
  | timeout =>
    simp only [next] at step
    split at step
    · rename_i waits
      cases step
      exact .timeout waits
    · cases step
  | interrupt =>
    simp only [next] at step
    split at step
    · rename_i waits
      cases step
      exact .interrupt waits
    · cases step
  | pass =>
    simp only [next] at step
    split at step
    · rename_i due
      cases step
      exact .pass due.2.1
    · cases step
  | overdue =>
    simp only [next] at step
    split at step
    · rename_i walks
      split at step
      · cases step
        exact .overdue walks
      · cases step
    · cases step
  | ask =>
    simp only [next] at step
    split at step
    · rename_i walks held
      split at step
      · cases step
        exact .ask walks held
      · cases step
    · cases step
  | skip =>
    simp only [next] at step
    split at step
    · rename_i walks
      split at step
      · cases step
        exact .skip walks
      · cases step
    · cases step
  | receiveLookup =>
    simp only [next] at step
    split at step
    · rename_i walks _
      split at step
      · rename_i answered
        split at step
        · cases step
          exact .receiveLookup walks answered
        · cases step
      · cases step
    · cases step
  | lookupFailed =>
    simp only [next] at step
    split at step
    · rename_i walks
      cases step
      exact .lookupFailed walks
    · cases step
  | rest =>
    simp only [next] at step
    split at step
    · rename_i walks
      cases step
      exact .rest walks
    · cases step
  | read =>
    simp only [next] at step
    split at step
    · rename_i found
      have unread := List.mem_of_find?_eq_some found
      split at step
      · cases step
        exact .turnAway unread
      · rename_i same
        cases step
        refine .read unread fun journalId named => ?_
        rw [Option.mem_def.mp named] at same
        simpa using same
    · cases step
  | refuse =>
    simp only [next] at step
    split at step
    · rename_i taken
      cases step
      exact .refuse taken
    · cases step
  | proceed =>
    simp only [next] at step
    split at step
    · rename_i taken
      obtain ⟨relay, proceeds, rfl⟩ := Option.map_eq_some_iff.mp step
      exact .proceed taken proceeds
    · cases step
  | send =>
    obtain ⟨message, answered, rfl⟩ := Option.map_eq_some_iff.mp step
    exact .send answered
  | hangUp =>
    simp only [next] at step
    split at step
    · cases step
      exact .hangUp
    · cases step
  | journal => exact .journal step
  | restart =>
    simp only [next, Option.map_eq_some_iff] at step
    obtain ⟨relay, starts, rfl⟩ := step
    exact .restart starts
  | rebuild =>
    cases step
    exact .rebuild

/-- The requests whose change began, in any of the Relay's journals. -/
def began (s : ControlLink) : List (Nat × ChangeRequest) :=
  s.relay.began ++ s.earlier.flatMap (·.began)

/-- The requests whose change went through. -/
def went (s : ControlLink) : List (Nat × ChangeRequest) :=
  s.relay.went ++ s.earlier.flatMap (·.went)

end ControlLink

end Kiln.Hearth
