import Kiln.Operations.Lanes

/-!
# The Relay's operation journal

`apps/relay/src/control-socket.ts` (`journaled`, `lookupOperation` and the registry of changes
at `control-socket.ts:2159-2348`) over the `relay_operations` table of
`apps/relay/src/effect/state.ts`. A change that carries an operation ID is claimed in memory,
read for and recorded in the journal, run in its lane, and its outcome remembered in memory and
written back. Each call to the database is a step of its own that can fail, on either side of
its commit, and any other request's step can come in between.

Requests and lookups are numbered. What each of them still has to do is its phase, which stands
for the fiber that runs it.
-/

namespace Kiln.Relay
open Kiln.Lib Kiln.Operations

/-- A paired client's ID, which is a hexadecimal fingerprint (`effect/pairing.ts:258`); all that matters of it here is
that it holds no NUL. -/
abbrev ClientId := { id : String // '\x00' ∉ id.toList }

/-- The primary key of `relay_operations` (`state.ts:1502-1513`). -/
structure CommandId where
  clientId : ClientId
  operationId : String
  deriving DecidableEq

/-- `operationKey` (`control-socket.ts:2194-2196`). -/
def operationKey (clientId operationId : String) : String :=
  clientId ++ "\x00" ++ operationId

/-- The key a change is kept under in memory. -/
def CommandId.key (command : CommandId) : String :=
  operationKey command.clientId.val command.operationId

/-- A list up to its first separator is told apart from what follows it. -/
theorem append_separator_inj {α : Type*} {separator : α} {x y u v : List α}
    (x_clear : separator ∉ x) (y_clear : separator ∉ y)
    (same : x ++ separator :: u = y ++ separator :: v) : x = y ∧ u = v := by
  induction x generalizing y with
  | nil =>
    cases y with
    | nil => simpa using same
    | cons head rest =>
      simp only [List.nil_append, List.cons_append, List.cons.injEq] at same
      exact absurd (same.1 ▸ List.mem_cons_self) y_clear
  | cons head rest ih =>
    cases y with
    | nil =>
      simp only [List.nil_append, List.cons_append, List.cons.injEq] at same
      exact absurd (same.1 ▸ List.mem_cons_self) x_clear
    | cons head' rest' =>
      simp only [List.cons_append, List.cons.injEq] at same
      simp only [List.mem_cons, not_or] at x_clear y_clear
      obtain ⟨rfl, rfl⟩ := ih x_clear.2 y_clear.2 same.2
      exact ⟨by rw [same.1], rfl⟩

/-- No two operation IDs share a key in memory, as no client ID holds the separator. -/
@[simp] theorem CommandId.key_inj {a b : CommandId} : a.key = b.key ↔ a = b := by
  constructor
  · intro same
    obtain ⟨⟨client, client_clear⟩, operation⟩ := a
    obtain ⟨⟨client', client_clear'⟩, operation'⟩ := b
    have lists := congrArg String.toList same
    simp only [CommandId.key, operationKey, String.toList_append] at lists
    have parts := append_separator_inj client_clear client_clear'
      (by simpa using lists : client.toList ++ '\x00' :: operation.toList =
        client'.toList ++ '\x00' :: operation'.toList)
    obtain rfl : client = client' := String.toList_inj.mp parts.1
    obtain rfl : operation = operation' := String.toList_inj.mp parts.2
    rfl
  · intro same
    rw [same]

/-! ## Outcomes and failures -/

/-- What an error reply says (`control-socket.ts:2355-2359`). -/
structure ControlFailure where
  code : String
  message : String
  retryable : Bool
  deriving DecidableEq, Repr

/-- `RecordedOutcome` (`control-socket.ts:2161-2175`). A payload is the text it is sent as. -/
inductive RecordedOutcome where
  /-- The change went through; the payload is `kept` or dropped. -/
  | succeeded (kept : Bool) (payload : String)
  | failed (failure : ControlFailure)
  | interrupted
  deriving DecidableEq, Repr

/-- The outcome of a change that went through whose reply isn't kept. -/
def RecordedOutcome.unkept : RecordedOutcome := .succeeded false "null"

/-- The codes of an `InstallationReplaceError` (`installation.ts:161-167`). -/
inductive InstallationReplaceCode where
  | installationChanged
  | installationFixed
  deriving DecidableEq, Repr

def InstallationReplaceCode.text : InstallationReplaceCode → String
  | installationChanged => "installation_changed"
  | installationFixed => "installation_fixed"

/-- What a request fails with, as `controlFailureFor` tells the causes apart. -/
inductive ControlCause where
  | recorded (failure : ControlFailure)
  | laneRejected (error : LaneRejectedError)
  | notFound (message : String)
  | installationReplace (code : InstallationReplaceCode) (message : String)
  /-- Anything else, with the text `relayControlErrorMessage` gives it. -/
  | unexpected (message : String)
  deriving DecidableEq, Repr

/-- The last branches of `controlFailureFor`, which an aborted request doesn't reach (`control-socket.ts:2395-2414`). -/
def plainFailureFor : ControlCause → ControlFailure
  | .notFound message => ⟨"not_found", message, false⟩
  | .installationReplace code message => ⟨code.text, message, false⟩
  | .laneRejected error =>
      match error.reason with
      | .busy => ⟨"too_many_requests", error.message, true⟩
      | _ => ⟨"operation_failed", error.message, false⟩
  | .recorded failure => failure
  | .unexpected message => ⟨"operation_failed", message, false⟩

/-- `controlFailureFor` (`control-socket.ts:2351-2415`). -/
def controlFailureFor (cause : ControlCause) (aborted : Bool) : ControlFailure :=
  let unlessAborted :=
    if aborted then ⟨"request_cancelled", "Relay request was cancelled", false⟩
    else plainFailureFor cause
  match cause with
  | .recorded failure => failure
  | .laneRejected error =>
      match error.reason with
      | .paused => ⟨"relay_paused", error.message, false⟩
      | .refused => ⟨"operation_refused", error.message, false⟩
      | .cancelled =>
          ⟨"operation_withdrawn", "The change was withdrawn before it ran", true⟩
      | _ => unlessAborted
  | _ => unlessAborted

/-- What a change's own execution fails with: `options.execute`'s errors, or a client that lost its permission while it
waited (`control-socket.ts:931-950`). -/
inductive ExecutionFailure where
  | forbidden
  | laneRejected (error : LaneRejectedError)
  | notFound (message : String)
  | installationReplace (code : InstallationReplaceCode) (message : String)
  | unexpected (message : String)
  deriving DecidableEq, Repr

def ExecutionFailure.cause : ExecutionFailure → ControlCause
  | forbidden => .recorded ⟨"forbidden", "Relay permission denied", false⟩
  | laneRejected error => .laneRejected error
  | notFound message => .notFound message
  | installationReplace code message => .installationReplace code message
  | unexpected message => .unexpected message

/-- `conflictingOutcome` (`control-socket.ts:2187-2192`). -/
def conflictingOutcome : RecordedOutcome :=
  .failed ⟨"operation_conflict", "A different request already used this operation ID", false⟩

/-! ## The journal's table -/

/-- The `status` of a row (`state.ts:1507`). -/
inductive OperationStatus where
  | running
  | succeeded
  | failed
  | interrupted
  deriving DecidableEq, Repr

/-- A row of `relay_operations`, with the columns the journal's answers come from. -/
structure RelayOperationRecord where
  payloadSha256 : String
  status : OperationStatus
  errorCode : Option String
  errorMessage : Option String
  retryable : Bool
  startedAt : Nat
  deriving DecidableEq, Repr

/-- The rows by primary key. -/
abbrev OperationRows := CommandId → Option RelayOperationRecord

/-- `recordedOutcome` (`control-socket.ts:2296-2310`). -/
def recordedOutcome (record : RelayOperationRecord) : RecordedOutcome :=
  match record.status with
  | .succeeded => .unkept
  | .failed =>
      .failed ⟨record.errorCode.getD "operation_failed",
        record.errorMessage.getD "Relay operation failed", record.retryable⟩
  | _ => .interrupted

/-- `startOperation` (`state.ts:2622-2648`): a row that is there stays as it is. -/
def OperationRows.startOperation (rows : OperationRows) (command : CommandId) (digest : String)
    (startedAt : Nat) : OperationRows :=
  match rows command with
  | some _ => rows
  | none => Function.update rows command (some ⟨digest, .running, none, none, false, startedAt⟩)

/-- What `recordOutcome` writes (`control-socket.ts:1228-1240`). -/
structure FinishedOutcome where
  status : OperationStatus
  errorCode : Option String
  errorMessage : Option String
  retryable : Bool
  deriving DecidableEq, Repr

def RecordedOutcome.finished : RecordedOutcome → FinishedOutcome
  | succeeded _ _ => ⟨.succeeded, none, none, false⟩
  | failed failure => ⟨.failed, some failure.code, some failure.message, failure.retryable⟩
  | interrupted => ⟨.failed, none, none, false⟩

/-- A row with an outcome written over it. -/
def RelayOperationRecord.finish (record : RelayOperationRecord) (finished : FinishedOutcome) :
    RelayOperationRecord :=
  { record with
    status := finished.status
    errorCode := finished.errorCode
    errorMessage := finished.errorMessage
    retryable := finished.retryable }

/-- `finishOperation` (`state.ts:2649-2664`). -/
def OperationRows.finishOperation (rows : OperationRows) (command : CommandId)
    (finished : FinishedOutcome) : OperationRows :=
  Function.update rows command ((rows command).map (·.finish finished))

/-- `interruptRunningOperations` (`state.ts:2665-2673`). -/
def OperationRows.interruptRunningOperations (rows : OperationRows) : OperationRows :=
  fun command => (rows command).map fun record =>
    if record.status = .running then { record with status := .interrupted } else record

/-- `relayOperationRetentionMs` (`relay-protocol.ts:595`). -/
def relayOperationRetentionMs : Nat := 7 * 24 * 60 * 60000

/-- The rows `pruneOperations(now - relayOperationRetentionMs)` deletes (`state.ts:2674-2681`, `index.ts:452-475`). -/
def RelayOperationRecord.lapsed (record : RelayOperationRecord) (now : Nat) : Bool :=
  record.status ≠ .running && record.startedAt + relayOperationRetentionMs < now

def OperationRows.pruneOperations (rows : OperationRows) (now : Nat) : OperationRows :=
  fun command => (rows command).filter fun record => !record.lapsed now

/-! ## The registry in memory -/

/-- `SettledOperation` (`control-socket.ts:2205-2208`). -/
structure SettledOperation where
  digest : String
  outcome : RecordedOutcome
  deriving DecidableEq, Repr

/-- `LiveOperation` (`control-socket.ts:2210-2214`). Its deferred is told by the number of the request that made it, and
`digest` is set once the journal shows the change is that one's. -/
structure LiveOperation where
  digest : Option String
  claimant : Nat
  deriving DecidableEq, Repr

/-- `FinishedOperation` (`control-socket.ts:2216-2218`). -/
structure FinishedOperation extends SettledOperation where
  expiresAt : Nat
  deriving DecidableEq, Repr

/-- An outcome still to be written to the journal. -/
structure OutcomeWrite where
  command : CommandId
  finished : FinishedOutcome
  deriving DecidableEq

/-- `OperationRegistry` (`control-socket.ts:2220-2226`). -/
structure OperationRegistry where
  finished : OrderedMap String FinishedOperation := .empty
  running : OrderedMap String LiveOperation := .empty
  writes : List OutcomeWrite := []

/-- The bounds on what is remembered (`control-socket.ts:2232-2237`). -/
def recentOperationMs : Nat := 20 * 60000

def maxRecentOperations : Nat := 500

def maxRecentResultBytes : Nat := 64 * 1024

/-- The walk of `rememberOperation` over the remembered outcomes, oldest first (`control-socket.ts:2246-2254`). -/
def forgetOldest (now : Nat) :
    List (String × FinishedOperation) → OrderedMap String FinishedOperation → OrderedMap String FinishedOperation
  | [], finished => finished
  | (oldest, entry) :: rest, finished =>
      if now < entry.expiresAt && finished.size < maxRecentOperations then finished
      else forgetOldest now rest (finished.delete oldest)

/-- An outcome without a reply too large to remember (`control-socket.ts:2255-2265`). -/
def RecordedOutcome.trimmed : RecordedOutcome → RecordedOutcome
  | succeeded kept payload =>
      if payload.utf8ByteSize ≤ maxRecentResultBytes then succeeded kept payload else unkept
  | outcome => outcome

namespace OperationRegistry

/-- `rememberOperation` (`control-socket.ts:2239-2266`). -/
def rememberOperation (operations : OperationRegistry) (key digest : String)
    (outcome : RecordedOutcome) (now : Nat) : OperationRegistry :=
  let finished := forgetOldest now operations.finished.entries operations.finished
  { operations with
    finished := finished.set key ⟨⟨digest, outcome.trimmed⟩, now + recentOperationMs⟩ }

/-- `recentOperation` (`control-socket.ts:2268-2277`): what is remembered under a key, and the registry once an entry
that lapsed is dropped. -/
def recentOperation (operations : OperationRegistry) (key : String) (now : Nat) :
    Option FinishedOperation × OperationRegistry :=
  match operations.finished.get key with
  | none => (none, operations)
  | some entry =>
      if now < entry.expiresAt then (some entry, operations)
      else (none, { operations with finished := operations.finished.delete key })

end OperationRegistry

/-! ## Requests and their answers -/

/-- A request for a change, as `journaled` reads it. `digest` is its `payloadDigest` (`control-socket.ts:2198-2202`),
and `envelope` the size in bytes of its response's frame around the payload. -/
structure ChangeRequest where
  command : CommandId
  operation : String
  digest : String
  envelope : Nat
  deriving DecidableEq

/-- The frame a request is answered with. -/
inductive Reply where
  | response (payload : String)
  | error (failure : ControlFailure)
  deriving DecidableEq, Repr

/-- `relayControlMaxFrameBytes` (`relay-protocol.ts:16`). -/
def relayControlMaxFrameBytes : Nat := 1024 * 1024

/-- `(bytes / (1024 * 1024)).toFixed(1)`. -/
def mebibytes (bytes : Nat) : String :=
  let tenths := (20 * bytes + 1024 * 1024) / (2 * 1024 * 1024)
  toString (tenths / 10) ++ "." ++ toString (tenths % 10)

/-- What a reply too large for a frame is answered with (`control-socket.ts:1064-1071`). -/
def responseTooLarge (request : ChangeRequest) (bytes : Nat) : ControlFailure :=
  ⟨"response_too_large", request.operation ++ " produced a " ++ mebibytes bytes ++ " MiB response, over the " ++
      toString (relayControlMaxFrameBytes / (1024 * 1024)) ++ " MiB control message limit",
    false⟩

/-- `sendResponse` (`control-socket.ts:1055-1074`). -/
def sendResponse (request : ChangeRequest) (payload : String) : Reply :=
  let bytes := request.envelope + payload.utf8ByteSize
  if bytes > relayControlMaxFrameBytes then .error (responseTooLarge request bytes)
  else .response payload

/-- The failure of a repeat of a change whose reply isn't kept (`control-socket.ts:2326-2332`). -/
def resultUnavailable : ControlFailure :=
  ⟨"result_unavailable", "The change went through, but the Relay no longer has its reply. Refresh to see the result.",
    false⟩

/-- The failure of a repeat of a change a restart cut off (`control-socket.ts:2340-2344`). -/
def operationInterrupted : ControlFailure :=
  ⟨"operation_interrupted", "The Relay restarted while this change ran; check whether it took effect", false⟩

/-- `settleRecorded` (`control-socket.ts:2313-2348`). -/
def settleRecorded : RecordedOutcome → Except ControlFailure String
  | .succeeded true payload => .ok payload
  | .succeeded false _ => .error resultUnavailable
  | .failed failure => .error failure
  | .interrupted => .error operationInterrupted

/-- `repeat` in `journaled` (`control-socket.ts:1112-1118`), and the frame it is answered with. -/
def repeatReply (request : ChangeRequest) (earlier : SettledOperation) : Reply :=
  let settled := if earlier.digest = request.digest then earlier.outcome else conflictingOutcome
  match settleRecorded settled with
  | .ok payload => sendResponse request payload
  | .error failure => .error (controlFailureFor (.recorded failure) false)

/-- The reply of the request that ran its change (`control-socket.ts:1201`, `1030-1051`). -/
def ownReply (request : ChangeRequest) (exit : Except ControlCause String) (aborted : Bool) :
    Reply :=
  match exit with
  | .ok payload => sendResponse request payload
  | .error cause => .error (controlFailureFor cause aborted)

/-- The outcome of a change from how its run ended (`control-socket.ts:1185-1191`). -/
def outcomeOf : Except ControlCause String → RecordedOutcome
  | .ok payload => .succeeded true payload
  | .error cause => .failed (controlFailureFor cause false)

/-- What a request for a change still has to do. -/
inductive RequestPhase where
  /-- It claimed its ID and reads the journal. -/
  | reading
  /-- The journal knows nothing of the ID; the request is being recorded in it. -/
  | starting
  /-- It is recorded, and waits for its turn in the lanes. -/
  | queued
  /-- Its change runs. -/
  | running
  /-- It waits for the request that claimed its ID. -/
  | awaiting (claimant : Nat)
  | answered (reply : Reply)
  /-- It was interrupted while it waited for another request, as its session closed. -/
  | dropped
  deriving DecidableEq, Repr

/-- A request has claimed its ID and not settled it. -/
def RequestPhase.claims : RequestPhase → Bool
  | reading | starting | queued | running => true
  | _ => false

/-- A request the Relay took. -/
structure TakenRequest where
  request : ChangeRequest
  phase : RequestPhase
  deriving DecidableEq

/-- `RelayOperationLookup` (`relay-protocol.ts:978-995`). -/
inductive OperationLookup where
  | unknown
  | running
  | succeeded (result : Option String)
  | failed (failure : ControlFailure)
  | interrupted
  deriving DecidableEq, Repr

/-- `lookupFor` (`control-socket.ts:2279-2292`). -/
def lookupFor : RecordedOutcome → OperationLookup
  | .succeeded true payload => .succeeded (some payload)
  | .succeeded false _ => .succeeded none
  | .interrupted => .interrupted
  | .failed failure => .failed failure

/-- What an `operation.get` still has to do. -/
inductive LookupPhase where
  | reading
  | answered (lookup : OperationLookup)
  | failed (failure : ControlFailure)
  deriving DecidableEq, Repr

structure TakenLookup where
  command : CommandId
  phase : LookupPhase
  deriving DecidableEq

/-! ## The Relay's state and its steps -/

/-- A Relay with its journal. Of each change, `started` and `ended` note what the journal never reads: the digests of
the requests it was run for, and whether it went through once it ended in this process. -/
structure RelayJournal where
  operations : OperationRegistry := {}
  rows : OperationRows := fun _ => none
  requests : Nat → Option TakenRequest := fun _ => none
  lookups : Nat → Option TakenLookup := fun _ => none
  started : CommandId → List String := fun _ => []
  ended : CommandId → Option Bool := fun _ => none

/-- A request that waits for a claim is answered as it settles. -/
def TakenRequest.resume (taken : TakenRequest) (claimant : Nat) (settled : SettledOperation) :
    TakenRequest :=
  if taken.phase = .awaiting claimant then
    { taken with phase := .answered (repeatReply taken.request settled) }
  else taken

namespace RelayJournal

/-- Puts a request in a phase. -/
def put (s : RelayJournal) (r : Nat) (request : ChangeRequest) (phase : RequestPhase) :
    RelayJournal :=
  { s with requests := Function.update s.requests r (some ⟨request, phase⟩) }

def putLookup (s : RelayJournal) (l : Nat) (command : CommandId) (phase : LookupPhase) :
    RelayJournal :=
  { s with lookups := Function.update s.lookups l (some ⟨command, phase⟩) }

/-- Claims the ID of a request (`control-socket.ts:1133-1137`). -/
def claim (s : RelayJournal) (r : Nat) (request : ChangeRequest) : RelayJournal :=
  let operations := s.operations
  { s with
    operations := { operations with
      running := operations.running.set request.command.key ⟨none, r⟩ } }.put r request .reading

/-- `journaled` up to its first wait (`control-socket.ts:1103-1137`). -/
def journaled (s : RelayJournal) (r : Nat) (request : ChangeRequest) (now : Nat) :
    RelayJournal :=
  let key := request.command.key
  match s.operations.running.get key with
  | some live =>
      match live.digest with
      | none => s.put r request (.awaiting live.claimant)
      | some digest =>
          if digest = request.digest then s.put r request (.awaiting live.claimant)
          else s.put r request (.answered (repeatReply request ⟨digest, conflictingOutcome⟩))
  | none =>
      match s.operations.recentOperation key now with
      | (some recent, operations) =>
          { s with operations := operations }.put r request (.answered (repeatReply request recent.toSettledOperation))
      | (none, operations) => { s with operations := operations }.claim r request

/-- `settle` in `journaled` (`control-socket.ts:1141-1152`). It is called a second time only once it is settled, and
does nothing then. -/
def settle (s : RelayJournal) (r : Nat) (command : CommandId) (madeWith : String)
    (outcome : RecordedOutcome) (now : Nat) : RelayJournal :=
  let operations := s.operations
  let released := { operations with running := operations.running.delete command.key }
  { s with
    operations := released.rememberOperation command.key madeWith outcome now
    requests := fun q => (s.requests q).map (·.resume r ⟨madeWith, outcome⟩) }

/-- The journal's answer to the request that reads it (`control-socket.ts:1154-1171`). -/
def readPrior (s : RelayJournal) (r : Nat) (request : ChangeRequest) (now : Nat) :
    RelayJournal :=
  match s.rows request.command with
  | some prior =>
      let settled : SettledOperation := ⟨prior.payloadSha256, recordedOutcome prior⟩
      (s.settle r request.command settled.digest settled.outcome now).put r request
        (.answered (repeatReply request settled))
  | none =>
      -- `claim.digest = digest`
      let operations := s.operations
      { s with
        operations := { operations with
          running := operations.running.set request.command.key ⟨some request.digest, r⟩ } }.put
        r request .starting

/-- The claim settles as its request fails before its change is due, which `onExit` sees to
(`control-socket.ts:1204-1217`). -/
def failBefore (s : RelayJournal) (r : Nat) (request : ChangeRequest) (cause : ControlCause)
    (aborted : Bool) (now : Nat) : RelayJournal :=
  (s.settle r request.command request.digest (.failed (controlFailureFor cause false)) now).put
    r request (.answered (.error (controlFailureFor cause aborted)))

/-- The claim settles with how the change went, which is still to be written to the journal
(`control-socket.ts:1184-1201`). -/
def finish (s : RelayJournal) (r : Nat) (request : ChangeRequest)
    (exit : Except ControlCause String) (aborted : Bool) (now : Nat) : RelayJournal :=
  let settled := s.settle r request.command request.digest (outcomeOf exit) now
  let operations := settled.operations
  { settled with
    operations := { operations with
      writes := operations.writes ++ [OutcomeWrite.mk request.command (outcomeOf exit).finished] } }.put
    r request (.answered (ownReply request exit aborted))

/-- The change of a request starts to run. -/
def begin (s : RelayJournal) (r : Nat) (request : ChangeRequest) : RelayJournal :=
  { s with
    started := Function.update s.started request.command
      (s.started request.command ++ [request.digest]) }.put r request .running

/-- A change that ran ends. -/
def complete (s : RelayJournal) (r : Nat) (request : ChangeRequest)
    (exit : Except ExecutionFailure String) (aborted : Bool) (now : Nat) : RelayJournal :=
  { s with
    ended := Function.update s.ended request.command (some exit.toBool) }.finish
    r request (exit.mapError ExecutionFailure.cause) aborted now

/-- An attempt at one of the outcome writes ends: it reached the table or not, and is the last attempt or not
(`control-socket.ts:1222-1265`). -/
def write (s : RelayJournal) (write : OutcomeWrite) (landed last : Bool) : RelayJournal :=
  let operations := s.operations
  { s with
    rows := if landed then s.rows.finishOperation write.command write.finished else s.rows
    operations := if last then { operations with writes := operations.writes.erase write }
      else operations }

/-- `lookupOperation` up to its read of the journal (`control-socket.ts:1076-1087`). -/
def lookupOperation (s : RelayJournal) (l : Nat) (command : CommandId) (now : Nat) :
    RelayJournal :=
  if s.operations.running.has command.key then s.putLookup l command (.answered .running)
  else
    match s.operations.recentOperation command.key now with
    | (some recent, operations) =>
        { s with operations := operations }.putLookup l command (.answered (lookupFor recent.outcome))
    | (none, operations) => { s with operations := operations }.putLookup l command .reading

/-- The journal's answer to a lookup (`control-socket.ts:1088-1094`). -/
def lookupAnswer (rows : OperationRows) (command : CommandId) : OperationLookup :=
  match rows command with
  | some record => lookupFor (recordedOutcome record)
  | none => .unknown

/-- The Relay stops and starts again (`index.ts:450-465`). Outcome writes that haven't reached the table are lost, as is
everything in memory. -/
def restart (s : RelayJournal) (now : Nat) : RelayJournal :=
  { rows := (s.rows.interruptRunningOperations).pruneOperations now
    started := s.started }

/-- The Relay's clock prunes the journal (`index.ts:465-480`). -/
def prune (s : RelayJournal) (now : Nat) : RelayJournal :=
  { s with rows := s.rows.pruneOperations now }

end RelayJournal

/-- What can happen at a Relay, at the time its own clock tells. -/
inductive JournalEvent where
  | request (r : Nat) (request : ChangeRequest) (now : Nat)
  | read (r : Nat) (now : Nat)
  | readFailed (r : Nat) (message : String) (aborted : Bool) (now : Nat)
  | start (r : Nat) (now : Nat)
  /-- The record failed, once its transaction had `committed` or not, or `beforeRun` threw. -/
  | startFailed (r : Nat) (message : String) (committed aborted : Bool) (now : Nat)
  | begin (r : Nat)
  /-- The lanes turn the change away before its turn (`LaneTicket.run`). -/
  | reject (r : Nat) (error : LaneRejectedError) (aborted : Bool) (now : Nat)
  | complete (r : Nat) (exit : Except ExecutionFailure String) (aborted : Bool) (now : Nat)
  | write (write : OutcomeWrite) (landed last : Bool)
  | drop (r : Nat)
  | lookup (l : Nat) (command : CommandId) (now : Nat)
  | lookupRead (l : Nat)
  | lookupFailed (l : Nat) (message : String) (aborted : Bool)
  | restart (now : Nat)
  | prune (now : Nat)

namespace RelayJournal

/-- The step an event makes, where it can happen. -/
def next (s : RelayJournal) : JournalEvent → Option RelayJournal
  | .request r request now =>
      match s.requests r with
      | none => some (s.journaled r request now)
      | some _ => none
  | .read r now =>
      match s.requests r with
      | some ⟨request, .reading⟩ => some (s.readPrior r request now)
      | _ => none
  | .readFailed r message aborted now =>
      match s.requests r with
      | some ⟨request, .reading⟩ => some (s.failBefore r request (.unexpected message) aborted now)
      | _ => none
  | .start r now =>
      match s.requests r with
      | some ⟨request, .starting⟩ =>
          some ({ s with
            rows := s.rows.startOperation request.command request.digest now }.put
            r request .queued)
      | _ => none
  | .startFailed r message committed aborted now =>
      match s.requests r with
      | some ⟨request, .starting⟩ =>
          let rows := if committed then s.rows.startOperation request.command request.digest now
            else s.rows
          some ({ s with rows := rows }.failBefore r request (.unexpected message) aborted now)
      | _ => none
  | .begin r =>
      match s.requests r with
      | some ⟨request, .queued⟩ => some (s.begin r request)
      | _ => none
  | .reject r error aborted now =>
      match s.requests r with
      | some ⟨request, .queued⟩ =>
          some (s.finish r request (.error (.laneRejected error)) aborted now)
      | _ => none
  | .complete r exit aborted now =>
      match s.requests r with
      | some ⟨request, .running⟩ => some (s.complete r request exit aborted now)
      | _ => none
  | .write write landed last =>
      if write ∈ s.operations.writes then some (s.write write landed last) else none
  | .drop r =>
      match s.requests r with
      | some ⟨request, .awaiting _⟩ => some (s.put r request .dropped)
      | _ => none
  | .lookup l command now =>
      match s.lookups l with
      | none => some (s.lookupOperation l command now)
      | some _ => none
  | .lookupRead l =>
      match s.lookups l with
      | some ⟨command, .reading⟩ =>
          some (s.putLookup l command (.answered (lookupAnswer s.rows command)))
      | _ => none
  | .lookupFailed l message aborted =>
      match s.lookups l with
      | some ⟨command, .reading⟩ =>
          some (s.putLookup l command (.failed (controlFailureFor (.unexpected message) aborted)))
      | _ => none
  | .restart now => some (s.restart now)
  | .prune now => some (s.prune now)

/-- A Relay that just started with an empty journal, and every run from there. -/
def system : System RelayJournal JournalEvent :=
  .ofFunction (· = {}) next

/-- `s.Stepped e s'`: the step an event makes, with what it needs of the state before. -/
inductive Stepped (s : RelayJournal) : JournalEvent → RelayJournal → Prop where
  | request {r request now} (unused : s.requests r = none) :
      Stepped s (.request r request now) (s.journaled r request now)
  | read {r request now} (own : s.requests r = some ⟨request, .reading⟩) :
      Stepped s (.read r now) (s.readPrior r request now)
  | readFailed {r request message aborted now} (own : s.requests r = some ⟨request, .reading⟩) :
      Stepped s (.readFailed r message aborted now) (s.failBefore r request (.unexpected message) aborted now)
  | start {r request now} (own : s.requests r = some ⟨request, .starting⟩) : Stepped s (.start r now)
        ({ s with rows := s.rows.startOperation request.command request.digest now }.put r request .queued)
  | startFailed {r request message committed aborted now} (own : s.requests r = some ⟨request, .starting⟩) :
      Stepped s (.startFailed r message committed aborted now) ({ s with
          rows := if committed then s.rows.startOperation request.command request.digest now
            else s.rows }.failBefore r request (.unexpected message) aborted now)
  | begin {r request} (own : s.requests r = some ⟨request, .queued⟩) : Stepped s (.begin r) (s.begin r request)
  | reject {r request error aborted now} (own : s.requests r = some ⟨request, .queued⟩) :
      Stepped s (.reject r error aborted now) (s.finish r request (.error (.laneRejected error)) aborted now)
  | complete {r request exit aborted now} (own : s.requests r = some ⟨request, .running⟩) :
      Stepped s (.complete r exit aborted now) (s.complete r request exit aborted now)
  | write {write landed last} (pending : write ∈ s.operations.writes) :
      Stepped s (.write write landed last) (s.write write landed last)
  | drop {r request claimant} (own : s.requests r = some ⟨request, .awaiting claimant⟩) :
      Stepped s (.drop r) (s.put r request .dropped)
  | lookup {l command now} (unused : s.lookups l = none) :
      Stepped s (.lookup l command now) (s.lookupOperation l command now)
  | lookupRead {l command} (own : s.lookups l = some ⟨command, .reading⟩) :
      Stepped s (.lookupRead l) (s.putLookup l command (.answered (lookupAnswer s.rows command)))
  | lookupFailed {l command message aborted} (own : s.lookups l = some ⟨command, .reading⟩) :
      Stepped s (.lookupFailed l message aborted)
        (s.putLookup l command (.failed (controlFailureFor (.unexpected message) aborted)))
  | restart {now} : Stepped s (.restart now) (s.restart now)
  | prune {now} : Stepped s (.prune now) (s.prune now)

theorem stepped_of_next {s s' : RelayJournal} {e : JournalEvent} (step : s.next e = some s') :
    s.Stepped e s' := by
  unfold next at step
  split at step
  case h_14 => cases step; exact .restart
  case h_15 => cases step; exact .prune
  all_goals
    split at step
    · cases step
      constructor
      assumption
    · cases step

/-! ## What the steps leave alone -/

variable {s : RelayJournal} {r q : Nat} {request : ChangeRequest} {phase : RequestPhase}
  {command : CommandId} {madeWith : String} {outcome : RecordedOutcome} {now : Nat}

@[simp] theorem put_requests :
    (s.put r request phase).requests = Function.update s.requests r (some ⟨request, phase⟩) := rfl

@[simp] theorem put_operations : (s.put r request phase).operations = s.operations := rfl

@[simp] theorem put_rows : (s.put r request phase).rows = s.rows := rfl

@[simp] theorem put_started : (s.put r request phase).started = s.started := rfl

@[simp] theorem put_ended : (s.put r request phase).ended = s.ended := rfl

@[simp] theorem put_lookups : (s.put r request phase).lookups = s.lookups := rfl

@[simp] theorem settle_requests : (s.settle r command madeWith outcome now).requests =
      fun q => (s.requests q).map (·.resume r ⟨madeWith, outcome⟩) := rfl

@[simp] theorem settle_rows : (s.settle r command madeWith outcome now).rows = s.rows := rfl

@[simp] theorem settle_started : (s.settle r command madeWith outcome now).started = s.started := rfl

@[simp] theorem settle_ended : (s.settle r command madeWith outcome now).ended = s.ended := rfl

@[simp] theorem settle_lookups : (s.settle r command madeWith outcome now).lookups = s.lookups := rfl

@[simp] theorem settle_running :
    (s.settle r command madeWith outcome now).operations.running = s.operations.running.delete command.key := rfl

@[simp] theorem settle_writes : (s.settle r command madeWith outcome now).operations.writes = s.operations.writes := rfl

/-- `finished` remembers nothing that `earlier` doesn't. -/
def Forgets (earlier finished : OrderedMap String FinishedOperation) : Prop :=
  ∀ key entry, finished.get key = some entry → earlier.get key = some entry

theorem Forgets.delete {earlier finished : OrderedMap String FinishedOperation}
    (forgets : Forgets earlier finished) (key : String) :
    Forgets earlier (finished.delete key) := by
  intro k entry found
  rw [OrderedMap.get_delete] at found
  split at found
  · cases found
  · exact forgets k entry found

theorem recentOperation_cases (operations : OperationRegistry) (key : String) (now : Nat) :
    (∃ entry, operations.finished.get key = some entry ∧
      operations.recentOperation key now = (some entry, operations)) ∨
    ∃ finished, Forgets operations.finished finished ∧
      operations.recentOperation key now = (none, { operations with finished := finished }) := by
  unfold OperationRegistry.recentOperation
  cases found : operations.finished.get key with
  | none => exact .inr ⟨operations.finished, fun _ _ same => same, rfl⟩
  | some entry =>
    by_cases fresh : now < entry.expiresAt
    · exact .inl ⟨entry, rfl, if_pos fresh⟩
    · have forgets : Forgets operations.finished operations.finished := fun _ _ same => same
      exact .inr ⟨operations.finished.delete key, forgets.delete key, if_neg fresh⟩

/-- What the walk over the oldest outcomes leaves was remembered before. -/
theorem forgetOldest_forgets (now : Nat) (entries : List (String × FinishedOperation))
    {earlier finished : OrderedMap String FinishedOperation} (forgets : Forgets earlier finished) :
    Forgets earlier (forgetOldest now entries finished) := by
  induction entries generalizing finished with
  | nil => exact forgets
  | cons entry rest ih =>
    unfold forgetOldest
    split
    · exact forgets
    · exact ih (forgets.delete entry.1)

/-- What is remembered once a claim settles: its own outcome, and what was before. -/
theorem settle_finished {key : String} {entry : FinishedOperation}
    (found : (s.settle r command madeWith outcome now).operations.finished.get key = some entry) :
    (key = command.key ∧ entry.toSettledOperation = ⟨madeWith, outcome.trimmed⟩) ∨
    (key ≠ command.key ∧ s.operations.finished.get key = some entry) := by
  simp only [settle, OperationRegistry.rememberOperation, OrderedMap.get_set] at found
  split at found
  · cases found
    exact .inl ⟨Eq.symm ‹_›, rfl⟩
  · exact .inr ⟨Ne.symm ‹_›, forgetOldest_forgets now _ (fun _ _ same => same) _ _ found⟩

/-- What a request meets as it comes: a change under way, in doubt or not, an outcome that is remembered, or nothing,
and then it claims the ID. -/
theorem journaled_cases (s : RelayJournal) (r : Nat) (request : ChangeRequest) (now : Nat) :
    (∃ live, s.operations.running.get request.command.key = some live ∧
      (live.digest = none ∨ live.digest = some request.digest) ∧
      s.journaled r request now = s.put r request (.awaiting live.claimant)) ∨
    (∃ live digest, s.operations.running.get request.command.key = some live ∧
      live.digest = some digest ∧ digest ≠ request.digest ∧
      s.journaled r request now = s.put r request (.answered (repeatReply request ⟨digest, conflictingOutcome⟩))) ∨
    (s.operations.running.get request.command.key = none ∧
      ∃ entry, s.operations.finished.get request.command.key = some entry ∧ s.journaled r request now =
          s.put r request (.answered (repeatReply request entry.toSettledOperation))) ∨
    (s.operations.running.get request.command.key = none ∧ ∃ finished, Forgets s.operations.finished finished ∧
        let operations := s.operations
        s.journaled r request now =
          { s with operations := { operations with finished := finished } }.claim r request) := by
  unfold journaled
  dsimp only
  cases live_eq : s.operations.running.get request.command.key with
  | some live =>
    dsimp only
    cases digest_eq : live.digest with
    | none => exact .inl ⟨live, rfl, .inl digest_eq, rfl⟩
    | some digest =>
      dsimp only
      by_cases same : digest = request.digest
      · exact .inl ⟨live, rfl, .inr (same ▸ digest_eq), if_pos same⟩
      · exact .inr (.inl ⟨live, digest, rfl, digest_eq, same, if_neg same⟩)
  | none =>
    dsimp only
    rcases recentOperation_cases s.operations request.command.key now with
      ⟨entry, found, recalled⟩ | ⟨finished, forgets, recalled⟩
    · rw [recalled]
      exact .inr (.inr (.inl ⟨rfl, entry, found, rfl⟩))
    · rw [recalled]
      exact .inr (.inr (.inr ⟨rfl, finished, forgets, rfl⟩))

/-- What a lookup meets: a change under way, an outcome that is remembered, or nothing, and
    then it reads the journal. -/
theorem lookupOperation_cases (s : RelayJournal) (l : Nat) (command : CommandId) (now : Nat) :
    s.lookupOperation l command now = s.putLookup l command (.answered .running) ∨
    (∃ entry, s.operations.finished.get command.key = some entry ∧ s.lookupOperation l command now =
        s.putLookup l command (.answered (lookupFor entry.outcome))) ∨
    (s.operations.running.get command.key = none ∧ ∃ finished, Forgets s.operations.finished finished ∧
        let operations := s.operations
        s.lookupOperation l command now =
          { s with operations := { operations with finished := finished } }.putLookup
            l command .reading) := by
  unfold lookupOperation
  by_cases running : s.operations.running.has command.key
  · exact .inl (if_pos running)
  rw [if_neg running]
  rcases recentOperation_cases s.operations command.key now with
    ⟨entry, found, recalled⟩ | ⟨finished, forgets, recalled⟩
  · rw [recalled]
    exact .inr (.inl ⟨entry, found, rfl⟩)
  · rw [recalled]
    refine Or.inr (.inr ⟨?_, finished, forgets, rfl⟩)
    simpa [OrderedMap.has] using running

theorem claims_of_resume {taken : TakenRequest} {settled : SettledOperation}
    (at_q : (s.requests q).map (·.resume r settled) = some taken)
    (claims : taken.phase.claims = true) : s.requests q = some taken := by
  obtain ⟨earlier, found, rfl⟩ := Option.map_eq_some_iff.mp at_q
  unfold TakenRequest.resume at claims ⊢
  split at claims
  · simp [RequestPhase.claims] at claims
  · rw [if_neg ‹_›]
    exact found

end RelayJournal

end Kiln.Relay
