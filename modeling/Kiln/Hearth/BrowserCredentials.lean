import Mathlib
import Kiln.Lib.Behavior
import Kiln.Lib.OrderedMap

/-!
# Browser credentials

`CredentialEntry` of apps/web/src/lib/relay-browser-credentials.ts: the owners of one browser key, their requests for
capabilities, and the batches that carry these to Hearth. What runs between two awaits is one step. Hearth answers a
batch with capabilities for its requests, some or all, or fails it.
-/

namespace Kiln.Hearth
open Kiln.Lib

inductive CapabilityKind where
  | console
  | resources
  deriving DecidableEq

inductive BrowserCapabilityRequest where
  | console (optInV2 write : Bool)
  | resources (optInV2 : Bool)
  deriving DecidableEq

namespace BrowserCapabilityRequest

def kind : BrowserCapabilityRequest → CapabilityKind
  | .console .. => .console
  | .resources _ => .resources

/-- `capabilityRequestKey` -/
def capabilityRequestKey : BrowserCapabilityRequest → String
  | .console optInV2 write => "console:" ++ toString optInV2 ++ ":" ++ toString write
  | .resources optInV2 => "resources:" ++ toString optInV2

end BrowserCapabilityRequest

/-- A capability, and the request it was issued for. -/
structure IssuedBrowserCapability where
  request : BrowserCapabilityRequest
  deriving DecidableEq

def IssuedBrowserCapability.kind (capability : IssuedBrowserCapability) : CapabilityKind := capability.request.kind

inductive CapabilityError where
  /-- Relay browser credentials were released, by an owner. -/
  | released (owner : Nat)
  /-- The batch's signal was aborted. -/
  | aborted
  /-- Hearth refused, couldn't be reached, or there was no key. -/
  | failed
  /-- Hearth omitted a Relay capability. -/
  | omitted
  deriving DecidableEq

inductive CapabilitySettlement where
  | resolved (capability : IssuedBrowserCapability)
  | rejected (error : CapabilityError)
  deriving DecidableEq

/-- A call of `issue` by an owner, with how its promise was settled, however often. -/
structure CapabilityWaiter where
  owner : Nat
  request : BrowserCapabilityRequest
  settled : Bool := false
  settlements : List CapabilitySettlement := []
  deriving DecidableEq

structure CapabilityOwner where
  released : Bool := false
  /-- Its `waiters` that aren't settled. -/
  waiters : List Nat := []
  deriving DecidableEq

structure PendingCapability where
  request : BrowserCapabilityRequest
  waiters : List Nat := []
  deriving DecidableEq

inductive BatchStage where
  /-- It waits for the key. -/
  | formed
  | sent
  | ended
  deriving DecidableEq

structure ActiveCapabilityBatch where
  items : List PendingCapability
  aborted : Bool := false
  stage : BatchStage := .formed
  deriving DecidableEq

structure CredentialEntry where
  owners : List CapabilityOwner := []
  waiters : List CapabilityWaiter := []
  pending : OrderedMap String PendingCapability := .empty
  activeBatches : OrderedMap String Nat := .empty
  /-- Every batch there was, by its number. -/
  batches : List ActiveCapabilityBatch := []
  flushScheduled : Bool := false

inductive CredentialEvent where
  | acquire
  | issue (owner : Nat) (request : BrowserCapabilityRequest)
  | release (owner : Nat)
  | flush
  | send (batch : Nat)
  | answer (batch : Nat) (capabilities : List IssuedBrowserCapability)
  | fail (batch : Nat)
  /-- The batch's request ends as its signal is aborted. -/
  | stop (batch : Nat)

namespace CredentialEntry

/-- `settleWaiter` -/
def settleWaiter (s : CredentialEntry) (index : Nat) (settlement : CapabilitySettlement) : CredentialEntry :=
  match s.waiters[index]? with
  | some waiter =>
      if waiter.settled then s
      else
        { s with
          waiters := s.waiters.set index
            { waiter with settled := true, settlements := waiter.settlements ++ [settlement] }
          owners := s.owners.modify waiter.owner fun owner => { owner with waiters := owner.waiters.erase index } }
  | none => s

def settleAll (s : CredentialEntry) (waiters : List Nat) (settlement : CapabilitySettlement) : CredentialEntry :=
  waiters.foldl (fun s index => s.settleWaiter index settlement) s

def isSettled (s : CredentialEntry) (index : Nat) : Bool := (s.waiters[index]?.map (·.settled)).getD true

/-- Every waiter of a batch is settled. -/
def batchSettled (s : CredentialEntry) (batch : ActiveCapabilityBatch) : Bool :=
  batch.items.all fun item => item.waiters.all s.isSettled

/-- `removeSettledWaiters` -/
def removeSettledWaiters (s : CredentialEntry) : CredentialEntry :=
  let pending := s.pending.mapValues fun _ item => { item with waiters := item.waiters.filter (!s.isSettled ·) }
  { s with
    pending := pending.filter fun _ item => !item.waiters.isEmpty
    batches := s.batches.mapIdx fun index batch =>
      if (s.activeBatches.entries.map Prod.snd).contains index && s.batchSettled batch then
        { batch with aborted := true }
      else batch }

/-- `scheduleFlush` -/
def scheduleFlush (s : CredentialEntry) : CredentialEntry :=
  if s.flushScheduled || s.pending.entries.isEmpty then s else { s with flushScheduled := true }

/-- The item of a batch that's still going for a request's key. -/
def activeItem (s : CredentialEntry) (key : String) : Option (Nat × Nat) := do
  let index ← s.activeBatches.get key
  let batch ← s.batches[index]?
  if batch.aborted then none
  else
    let item ← batch.items.findIdx? fun item => item.request.capabilityRequestKey = key
    some (index, item)

def joinItem (index item waiter : Nat) (s : CredentialEntry) : CredentialEntry :=
  { s with
    batches := s.batches.modify index fun batch =>
      { batch with
        items := batch.items.modify item fun value => { value with waiters := value.waiters ++ [waiter] } } }

/-- `enqueueCapability` -/
def enqueueCapability (s : CredentialEntry) (request : BrowserCapabilityRequest) (waiter : Nat) : CredentialEntry :=
  let key := request.capabilityRequestKey
  match s.activeItem key with
  | some (index, item) => joinItem index item waiter s
  | none =>
      let pending := (s.pending.get key).getD { request }
      scheduleFlush
        { s with pending := s.pending.set key { pending with waiters := pending.waiters ++ [waiter] } }

/-- The first item of each kind. -/
def selectKinds : List CapabilityKind → List (String × PendingCapability) → List (String × PendingCapability)
  | _, [] => []
  | kinds, entry :: rest =>
      if entry.2.request.kind ∈ kinds then selectKinds kinds rest
      else entry :: selectKinds (entry.2.request.kind :: kinds) rest

/-- `flushCapabilities` up to its request -/
def flushCapabilities (s : CredentialEntry) : CredentialEntry :=
  let s := { s with flushScheduled := false }.removeSettledWaiters
  let picked := selectKinds [] s.pending.entries
  let s := { s with pending := s.pending.filter fun key _ => !(picked.map Prod.fst).contains key }
  if picked.isEmpty then s
  else
    let items := picked.map Prod.snd
    scheduleFlush
      { s with
        batches := s.batches ++ [{ items }]
        activeBatches := items.foldl
          (fun active item => active.set item.request.capabilityRequestKey s.batches.length) s.activeBatches }

/-- How a batch's answer settles an item: by the last capability of its kind. -/
def answerOf (capabilities : List IssuedBrowserCapability) (item : PendingCapability) : CapabilitySettlement :=
  match (capabilities.filter fun capability => capability.kind = item.request.kind).getLast? with
  | some capability => .resolved capability
  | none => .rejected .omitted

/-- The end of a batch's request: what settles its items, and the finalizer. -/
def endBatch (s : CredentialEntry) (index : Nat) (batch : ActiveCapabilityBatch)
    (settlement : PendingCapability → CapabilitySettlement) : CredentialEntry :=
  let s := batch.items.foldl (fun s item => s.settleAll item.waiters (settlement item)) s
  let s := { s with
    batches := s.batches.set index { batch with stage := .ended }
    activeBatches := batch.items.foldl (fun (active : OrderedMap String Nat) (item : PendingCapability) =>
        let key := item.request.capabilityRequestKey
        if active.get key = some index then active.delete key else active) s.activeBatches }
  s.removeSettledWaiters.scheduleFlush

/-- A batch whose request hasn't ended. -/
def underway (s : CredentialEntry) (index : Nat) : Option ActiveCapabilityBatch :=
  s.batches[index]?.filter fun batch => batch.stage ≠ .ended

def next (s : CredentialEntry) : CredentialEvent → Option CredentialEntry
  | .acquire => some { s with owners := s.owners ++ [{}] }
  | .issue index request =>
      match s.owners[index]? with
      | some owner =>
          let waiter : CapabilityWaiter := { owner := index, request }
          if owner.released then
            some { s with waiters := s.waiters ++
              [{ waiter with settled := true, settlements := [.rejected (.released index)] }] }
          else
            some (enqueueCapability
              { s with
                waiters := s.waiters ++ [waiter]
                owners := s.owners.set index { owner with waiters := owner.waiters ++ [s.waiters.length] } }
              request s.waiters.length)
      | none => none
  | .release index =>
      match s.owners[index]? with
      | some owner =>
          if owner.released then some s
          else
            let s := { s with owners := s.owners.set index { owner with released := true } }
            let s := s.settleAll owner.waiters (.rejected (.released index))
            some { s with owners := s.owners.modify index ({ · with waiters := [] }) }.removeSettledWaiters
      | none => none
  | .flush => if s.flushScheduled then some s.flushCapabilities else none
  | .send index =>
      match s.underway index with
      | some batch =>
          if batch.stage = .formed ∧ batch.aborted = false then
            some { s with batches := s.batches.set index { batch with stage := .sent } }
          else none
      | none => none
  | .answer index capabilities =>
      match s.underway index with
      | some batch =>
          if batch.stage = .sent ∧ ∀ capability ∈ capabilities, capability.request ∈ batch.items.map (·.request) then
            some (s.endBatch index batch (answerOf capabilities))
          else none
      | none => none
  | .fail index => (s.underway index).map fun batch => s.endBatch index batch fun _ => .rejected .failed
  | .stop index =>
      match s.underway index with
      | some batch => if batch.aborted then some (s.endBatch index batch fun _ => .rejected .aborted) else none
      | none => none

end CredentialEntry

def credentialSystem : System CredentialEntry CredentialEvent := .ofFunction (· = {}) CredentialEntry.next

/-! ## What is to hold -/

/-- How a call may be settled. -/
def CapabilityWaiter.Allows (waiter : CapabilityWaiter) : CapabilitySettlement → Prop
  | .resolved capability => capability.request = waiter.request
  | .rejected (.released owner) => owner = waiter.owner
  | .rejected .aborted => False
  | .rejected _ => True

structure CredentialEntry.Settling (s : CredentialEntry) : Prop where
  once : ∀ waiter ∈ s.waiters, waiter.settlements.length = if waiter.settled then 1 else 0
  own : ∀ waiter ∈ s.waiters, ∀ settlement ∈ waiter.settlements, waiter.Allows settlement
  /-- A batch is aborted only when every waiter on it has been settled. -/
  aborted : ∀ batch ∈ s.batches, batch.aborted = true → s.batchSettled batch = true

/-- A step puts no waiter on a batch that has been aborted. -/
def CredentialEntry.Closes (s s' : CredentialEntry) : Prop :=
  ∀ (index : Nat) (batch : ActiveCapabilityBatch), s.batches[index]? = some batch → batch.aborted = true →
    ∃ batch' : ActiveCapabilityBatch, s'.batches[index]? = some batch' ∧ batch'.aborted = true ∧ batch'.items = batch.items

/-- A behavior in which queued microtasks run, and requests end. -/
structure CredentialEntry.Fair (run : Nat → CredentialEntry) : Prop where
  flushes : ∀ n, (run n).flushScheduled = true → ∃ m, n ≤ m ∧ (run m).next .flush = some (run (m + 1))
  ends : ∀ index, LeadsTo run (fun s => (s.underway index).isSome = true) fun s => s.underway index = none

/-- Every call of `issue` comes to be settled. -/
def CredentialEntry.Settles (run : Nat → CredentialEntry) : Prop :=
  ∀ index, LeadsTo run (fun s => index < s.waiters.length) fun s =>
    ∃ waiter, s.waiters[index]? = some waiter ∧ waiter.settlements.length = 1

end Kiln.Hearth
