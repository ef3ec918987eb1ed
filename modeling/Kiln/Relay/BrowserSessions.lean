import Mathlib
import Kiln.Lib.OrderedMap
import Kiln.Lib.Transition
import Kiln.Relay.BrowserCapability

/-!
# Browser sessions and the floors under them

`apps/relay/src/browser-session-registry.ts` (the sessions and transfers of browsers, and the
authorization floors in memory), the floors and issuer generations in SQLite
(`effect/state.ts:3717-3819`) and what `browser-socket.ts`, `transfers/browser-files.ts` and
`index.ts` do between the two: a browser is checked against the floors in SQLite, and admitted
by the registry in a later step; a revision is committed to SQLite, and the registry revised in
a later step.

Sockets and transfers are numbered. Times are the Relay's clock in milliseconds.
-/

namespace Kiln.Relay
open Kiln.Lib

/-- `RelayBrowserAuthorizationRevision["scope"]` (`relay-protocol.ts:915-925`). -/
inductive AuthorizationScope where
  | subjectRelay
  | instance' (instanceId : String)
  | loginSession (loginSessionId : String)
  deriving DecidableEq, Repr

/-- `RelayBrowserAuthorizationRevision` (`relay-protocol.ts:927-931`). -/
structure AuthorizationRevision where
  minimumRevision : Nat
  scope : AuthorizationScope
  subject : String
  deriving DecidableEq, Repr

inductive BrowserVersion where
  | v1
  | v2
  deriving DecidableEq, Repr

/-- `BrowserSessionAuthority` (`browser-session-registry.ts:16-31`). -/
structure BrowserSessionAuthority where
  actions : List String
  expiresAt : Nat
  instanceId : String
  issuer : String
  issuerGeneration : Nat
  keyThumbprint : String
  loginSessionId : Option String
  operation : Option BrowserOperationKind
  origin : String
  resourceKind : BrowserResourceKind
  revision : Nat
  subject : String
  version : BrowserVersion
  deriving DecidableEq, Repr

/-- `authorityFromCapability` (`browser-session-registry.ts:419-437`). -/
def authorityFromCapability (capability : RelayBrowserCapabilityV2) : BrowserSessionAuthority where
  actions := capability.actions
  expiresAt := capability.expiresAt
  instanceId := capability.instanceId
  issuer := capability.issuer
  issuerGeneration := capability.issuerGeneration
  keyThumbprint := capability.keyThumbprint
  loginSessionId := some capability.loginSessionId
  operation := some capability.operation
  origin := capability.origin
  resourceKind := capability.kind
  revision := capability.authorizationRevision
  subject := capability.subject
  version := .v2

/-- `sameResourceAs` (`browser-session-registry.ts:455-463`). -/
def sameResourceAs (left right : BrowserSessionAuthority) : Bool :=
  left.resourceKind = right.resourceKind && left.instanceId = right.instanceId

/-- `sameOwner` (`browser-session-registry.ts:439-452`). -/
def sameOwner (left right : BrowserSessionAuthority) : Bool :=
  left.issuer = right.issuer && left.subject = right.subject &&
    left.loginSessionId = right.loginSessionId && left.origin = right.origin &&
    left.keyThumbprint = right.keyThumbprint && sameResourceAs left right &&
    left.operation = right.operation

/-- `floorKey` (`browser-session-registry.ts:465-477`). -/
def floorKey (issuer subject : String) (scope : AuthorizationScope) : String :=
  let (kind, id) := match scope with
    | .subjectRelay => ("subject_relay", "")
    | .instance' instanceId => ("instance", instanceId)
    | .loginSession loginSessionId => ("login_session", loginSessionId)
  issuer ++ "\x00" ++ subject ++ "\x00" ++ kind ++ "\x00" ++ id

/-- The scopes whose floors an authority is held to (`browser-session-registry.ts:329-344`). -/
def BrowserSessionAuthority.scopes (authority : BrowserSessionAuthority) :
    List AuthorizationScope :=
  [.subjectRelay] ++ (if authority.resourceKind = .instance' then [.instance' authority.instanceId] else []) ++
    (match authority.loginSessionId with
    | some loginSessionId => if loginSessionId = "" then [] else [.loginSession loginSessionId]
    | none => [])

/-- What the issuer generation and the floors of an authority are. -/
structure BrowserAuthority where
  issuerGeneration : Nat
  minimumRevision : Nat
  deriving DecidableEq, Repr

/-! ## The registry in memory -/

/-- `ActiveSession` (`browser-session-registry.ts:33-40`), but for its timer. -/
structure ActiveSession where
  active : Bool
  authority : BrowserSessionAuthority
  renewalNonce : Option String
  renewalNonceExpiresAt : Option Nat
  sessionId : String
  deriving DecidableEq, Repr

/-- `Transfer` (`browser-session-registry.ts:42-45`), but for its `abort`. -/
structure Transfer where
  authority : BrowserSessionAuthority
  active : Bool
  deriving DecidableEq, Repr

/-- `FloorState` (`browser-session-registry.ts:47-53`), which is kept under what else it says. -/
structure FloorState where
  minimumRevision : Nat
  receivedAt : Nat
  deriving DecidableEq, Repr

/-- `BrowserLimits`, as far as the registry reads them (`config.ts:122-134`). -/
structure BrowserLimits where
  pendingHandshakes : Nat
  pendingHandshakesPerIp : Nat
  sessions : Nat
  sessionsPerInstance : Nat
  sessionsPerUser : Nat
  sessionsPerUserInstance : Nat
  sublimitsEnforced : Bool
  deriving DecidableEq, Repr

/-- `BrowserSessionRegistry` (`browser-session-registry.ts:55-68`). `clientConfiguration` is an object told by its
identity there, and counts the objects made here. -/
structure BrowserSessionRegistry where
  clientConfiguration : Nat := 0
  established : OrderedMap Nat ActiveSession := .empty
  floorState : OrderedMap String FloorState := .empty
  issuerGenerations : OrderedMap String Nat := .empty
  pending : OrderedMap Nat String := .empty
  pendingByIp : OrderedMap String Nat := .empty
  transfers : OrderedMap Nat Transfer := .empty
  nextFloorPruneAt : Nat := 0

/-- `FLOOR_PRUNE_INTERVAL_MS` (`browser-session-registry.ts:14`). -/
def floorPruneIntervalMs : Nat := 30000

namespace BrowserSessionRegistry

/-- `acquirePending` (`browser-session-registry.ts:75-87`). -/
def acquirePending (registry : BrowserSessionRegistry) (limits : BrowserLimits) (socket : Nat)
    (peerIp : String) (enforceIp : Bool) : BrowserSessionRegistry × Bool :=
  let current := (registry.pendingByIp.get peerIp).getD 0
  if limits.pendingHandshakes ≤ registry.pending.size then (registry, false)
  else if enforceIp && limits.pendingHandshakesPerIp ≤ current then (registry, false)
  else
    ({ registry with
      pending := registry.pending.set socket peerIp
      pendingByIp := registry.pendingByIp.set peerIp (current + 1) }, true)

/-- `releasePending` (`browser-session-registry.ts:298-305`). An empty address is falsy. -/
def releasePending (registry : BrowserSessionRegistry) (socket : Nat) : BrowserSessionRegistry :=
  match registry.pending.get socket with
  | none | some "" => registry
  | some peerIp =>
      let next := (registry.pendingByIp.get peerIp).getD 1 - 1
      { registry with
        pending := registry.pending.delete socket
        pendingByIp :=
          if 0 < next then registry.pendingByIp.set peerIp next
          else registry.pendingByIp.delete peerIp }

/-- `release` (`browser-session-registry.ts:307-314`). -/
def release (registry : BrowserSessionRegistry) (socket : Nat) : BrowserSessionRegistry :=
  let registry := registry.releasePending socket
  { registry with established := registry.established.delete socket }

/-- `#deactivate` (`browser-session-registry.ts:388-393`). -/
def deactivate (registry : BrowserSessionRegistry) (socket : Nat) : BrowserSessionRegistry :=
  match registry.established.get socket with
  | none => registry
  | some session =>
      { registry with established := registry.established.set socket { session with active := false } }

/-- `#pruneFloors` (`browser-session-registry.ts:365-372`). -/
def pruneFloors (registry : BrowserSessionRegistry) (now : Nat) : BrowserSessionRegistry :=
  if now < registry.nextFloorPruneAt then registry
  else
    { registry with
      nextFloorPruneAt := now + floorPruneIntervalMs
      floorState := registry.floorState.filter fun _ floor =>
        now < floor.receivedAt + browserAuthorizationFloorRetentionMs }

/-- The generation the registry knows of an issuer. -/
def generation (registry : BrowserSessionRegistry) (issuer : String) : Nat :=
  (registry.issuerGenerations.get issuer).getD 0

/-- An issuer's generation, once it is told of another (`browser-session-registry.ts:111-117`). -/
def raiseGeneration (registry : BrowserSessionRegistry) (issuer : String) (told : Nat) :
    BrowserSessionRegistry :=
  { registry with
    issuerGenerations :=
      registry.issuerGenerations.set issuer (max (registry.generation issuer) told) }

/-- The highest floor of an authority, of those that are kept (`browser-session-registry.ts:345-353`). -/
def floorOf (registry : BrowserSessionRegistry) (authority : BrowserSessionAuthority) : Nat :=
  authority.scopes.foldl (fun minimum scope =>
    max minimum (((registry.floorState.get
      (floorKey authority.issuer authority.subject scope)).map (·.minimumRevision)).getD 0)) 0

/-- `minimumRevision` (`browser-session-registry.ts:326-354`), which prunes the floors first. -/
def minimumRevision (registry : BrowserSessionRegistry) (authority : BrowserSessionAuthority)
    (now : Nat) : Nat × BrowserSessionRegistry :=
  let registry := registry.pruneFloors now
  (registry.floorOf authority, registry)

/-- `#authorityIsCurrent` (`browser-session-registry.ts:356-363`). -/
def authorityIsCurrent (registry : BrowserSessionRegistry) (authority : BrowserSessionAuthority)
    (now : Nat) : Bool × BrowserSessionRegistry :=
  if authority.version ≠ .v2 then (true, registry)
  else if authority.issuerGeneration ≠ registry.generation authority.issuer then (false, registry)
  else
    let (minimum, registry) := registry.minimumRevision authority now
    (minimum ≤ authority.revision, registry)

/-- `#withinLimits` (`browser-session-registry.ts:395-416`). -/
def withinLimits (registry : BrowserSessionRegistry) (limits : BrowserLimits)
    (authority : BrowserSessionAuthority) : Bool :=
  if limits.sessions ≤ registry.established.size then false
  else if !limits.sublimitsEnforced then true
  else
    let existing := (registry.established.entries.map (·.2.authority)).filter (·.issuer = authority.issuer)
    let sameSubject := existing.filter (·.subject = authority.subject)
    (existing.filter (sameResourceAs · authority)).length < limits.sessionsPerInstance &&
      sameSubject.length < limits.sessionsPerUser &&
      (sameSubject.filter (sameResourceAs · authority)).length < limits.sessionsPerUserInstance

/-- What `activate` answers. -/
inductive Activation where
  | accepted (replaced : Option Nat)
  | refusedAuthorization
  | refusedCapacity (replaced : Option Nat)
  deriving DecidableEq, Repr

/-- The checks of an authority as its session is activated (`browser-session-registry.ts:118-128`). -/
def refuses (registry : BrowserSessionRegistry) (authority : BrowserSessionAuthority)
    (current : BrowserAuthority) (now : Nat) : Bool × BrowserSessionRegistry :=
  if authority.expiresAt ≤ now then (true, registry)
  else if authority.version ≠ .v2 then (false, registry)
  else if authority.issuerGeneration ≠ current.issuerGeneration ||
      authority.issuerGeneration ≠ registry.generation authority.issuer ||
      authority.revision < current.minimumRevision then (true, registry)
  else
    let (minimum, registry) := registry.minimumRevision authority now
    (authority.revision < minimum, registry)

/-- `activate` (`browser-session-registry.ts:89-155`). -/
def activate (registry : BrowserSessionRegistry) (limits : BrowserLimits) (socket : Nat)
    (isOpen : Bool) (authority : BrowserSessionAuthority) (sessionId : String)
    (current : BrowserAuthority) (renewal : Option (String × Nat)) (now : Nat) :
    BrowserSessionRegistry × Activation :=
  if !registry.pending.has socket || !isOpen then (registry, .refusedAuthorization)
  else
    let registry := registry.releasePending socket
    let registry := registry.raiseGeneration authority.issuer current.issuerGeneration
    let (refused, registry) := registry.refuses authority current now
    if refused then (registry, .refusedAuthorization)
    else
      let replaced := (registry.established.entries.find? fun entry =>
        entry.1 ≠ socket && sameOwner entry.2.authority authority).map Prod.fst
      let registry := match replaced with
        | some candidate => registry.release candidate
        | none => registry
      if !registry.withinLimits limits authority then (registry, .refusedCapacity replaced)
      else
        let session : ActiveSession :=
          { active := true
            authority := authority
            renewalNonce := renewal.map Prod.fst
            renewalNonceExpiresAt := renewal.map Prod.snd
            sessionId := sessionId }
        ({ registry with established := registry.established.set socket session }, .accepted replaced)

/-- `renew` (`browser-session-registry.ts:157-182`). -/
def renew (registry : BrowserSessionRegistry) (socket : Nat) (isOpen : Bool)
    (authority : BrowserSessionAuthority) (nonce : String) (nonceExpiresAt now : Nat) :
    BrowserSessionRegistry × Bool :=
  match registry.established.get socket with
  | none => (registry, false)
  | some session =>
      if !session.active || !isOpen || session.authority.expiresAt ≤ now ||
          authority.expiresAt ≤ now || !sameOwner session.authority authority ||
          authority.version ≠ .v2 ||
          authority.issuerGeneration ≠ registry.generation authority.issuer then (registry, false)
      else
        let (minimum, registry) := registry.minimumRevision authority now
        if authority.revision < minimum then (registry, false)
        else
          let renewed : ActiveSession :=
            { session with
              authority := authority
              renewalNonce := some nonce
              renewalNonceExpiresAt := some nonceExpiresAt }
          ({ registry with established := registry.established.set socket renewed }, true)

/-- `renewalChallenge` (`browser-session-registry.ts:184-198`): when the session's nonce lapses. An empty nonce and a
time of 0 are falsy. -/
def renewalChallenge (registry : BrowserSessionRegistry) (socket : Nat) : Option Nat :=
  match registry.established.get socket with
  | none => none
  | some session =>
      match session.active, session.renewalNonce, session.renewalNonceExpiresAt with
      | true, some nonce, some expiresAt =>
          if nonce = "" || expiresAt = 0 then none else some expiresAt
      | _, _, _ => none

/-- `isActive` (`browser-session-registry.ts:204-212`). -/
def isActive (registry : BrowserSessionRegistry) (socket : Nat) (requiredAction : Option String)
    (now : Nat) : Bool × BrowserSessionRegistry :=
  match registry.established.get socket with
  | none => (false, registry)
  | some session =>
      if !session.active then (false, registry)
      else if session.authority.expiresAt ≤ now then (false, registry.deactivate socket)
      else
        match requiredAction with
        | none => (true, registry)
        | some action => (action = "" || session.authority.actions.contains action, registry)

/-- `registerTransfer` (`browser-session-registry.ts:214-247`). -/
def registerTransfer (registry : BrowserSessionRegistry) (id : Nat)
    (authority : BrowserSessionAuthority) (current : BrowserAuthority) (now : Nat) :
    BrowserSessionRegistry :=
  let registry := registry.raiseGeneration authority.issuer current.issuerGeneration
  if authority.expiresAt ≤ now then registry
  else
    let (isCurrent, registry) := registry.authorityIsCurrent authority now
    if isCurrent && (authority.version = .v1 ||
        authority.issuerGeneration = current.issuerGeneration && current.minimumRevision ≤ authority.revision) then
      { registry with transfers := registry.transfers.set id ⟨authority, true⟩ }
    else registry

/-- The `active` of a transfer (`browser-session-registry.ts:244`). -/
def transferActive (registry : BrowserSessionRegistry) (id now : Nat) : Bool × BrowserSessionRegistry :=
  match registry.transfers.get id with
  | none => (false, registry)
  | some transfer =>
      if transfer.active then registry.authorityIsCurrent transfer.authority now
      else (false, registry)

/-- A transfer's `release` (`browser-session-registry.ts:236-239`). -/
def releaseTransfer (registry : BrowserSessionRegistry) (id : Nat) : BrowserSessionRegistry :=
  { registry with transfers := registry.transfers.delete id }

/-- One floor the registry is told of (`browser-session-registry.ts:261-267`). -/
def noteFloor (issuer : String) (now : Nat) (floorState : OrderedMap String FloorState)
    (item : AuthorizationRevision) : OrderedMap String FloorState :=
  let key := floorKey issuer item.subject item.scope
  match floorState.get key with
  | none => floorState.set key ⟨item.minimumRevision, now⟩
  | some current =>
      if current.minimumRevision < item.minimumRevision then
        floorState.set key ⟨item.minimumRevision, now⟩
      else floorState.set key { current with receivedAt := now }

/-- What `#authorityIsCurrent` answers of a registry whose floors were just pruned. -/
def keeps (registry : BrowserSessionRegistry) (authority : BrowserSessionAuthority) : Bool :=
  authority.version ≠ .v2 ||
    (authority.issuerGeneration = registry.generation authority.issuer &&
      registry.floorOf authority ≤ authority.revision)

/-- `revise` (`browser-session-registry.ts:249-281`). The floors are pruned as it begins, so that its later checks prune
none. -/
def revise (registry : BrowserSessionRegistry) (issuer : String)
    (items : List AuthorizationRevision) (issuerGeneration now : Nat) : BrowserSessionRegistry :=
  let registry := (registry.pruneFloors now).raiseGeneration issuer issuerGeneration
  let registry := { registry with
    floorState := items.foldl (noteFloor issuer now) registry.floorState }
  { registry with
    established := registry.established.mapValues fun _ session =>
      if registry.keeps session.authority then session else { session with active := false }
    transfers := registry.transfers.filter fun _ transfer => registry.keeps transfer.authority }

/-- `revokeIssuer` (`browser-session-registry.ts:283-296`). -/
def revokeIssuer (registry : BrowserSessionRegistry) (issuer : String) : BrowserSessionRegistry :=
  { registry with
    clientConfiguration := registry.clientConfiguration + 1
    established := registry.established.mapValues fun _ session =>
      if session.authority.issuer = issuer then { session with active := false } else session
    transfers := registry.transfers.filter fun _ transfer => transfer.authority.issuer ≠ issuer }

end BrowserSessionRegistry

/-! ## The floors in SQLite -/

/-- The primary key of `relay_browser_authorization_floors`. -/
structure FloorId where
  issuer : String
  subject : String
  scope : AuthorizationScope
  deriving DecidableEq, Repr

structure FloorRow where
  minimumRevision : Nat
  updatedAt : Nat
  deriving DecidableEq, Repr

/-- `relay_browser_issuer_generations` and `relay_browser_authorization_floors`. -/
structure BrowserTables where
  generations : OrderedMap String Nat := .empty
  floors : OrderedMap FloorId FloorRow := .empty

namespace BrowserTables

def generation (tables : BrowserTables) (issuer : String) : Nat :=
  (tables.generations.get issuer).getD 0

def floor (tables : BrowserTables) (id : FloorId) : Nat :=
  ((tables.floors.get id).map (·.minimumRevision)).getD 0

/-- `browserAuthority` (`state.ts:3717-3750`). No floor of an instance has an empty ID. -/
def browserAuthority (tables : BrowserTables) (instanceId : Option String)
    (issuer loginSessionId subject : String) : BrowserAuthority where
  issuerGeneration := tables.generation issuer
  minimumRevision :=
    max (tables.floor ⟨issuer, subject, .subjectRelay⟩)
      (max (tables.floor ⟨issuer, subject, .instance' (instanceId.getD "")⟩)
        (tables.floor ⟨issuer, subject, .loginSession loginSessionId⟩))

/-- The upsert of one floor (`state.ts:3779-3795`). -/
def upsert (issuer : String) (now : Nat) (floors : OrderedMap FloorId FloorRow)
    (item : AuthorizationRevision) : OrderedMap FloorId FloorRow :=
  let id : FloorId := ⟨issuer, item.subject, item.scope⟩
  match floors.get id with
  | none => floors.set id ⟨item.minimumRevision, now⟩
  | some row => floors.set id ⟨max row.minimumRevision item.minimumRevision, now⟩

/-- The upserts in order, with each floor as it is after its own (`state.ts:3776-3810`). -/
def upserts (issuer : String) (now : Nat) :
    List AuthorizationRevision → OrderedMap FloorId FloorRow → OrderedMap FloorId FloorRow × List AuthorizationRevision
  | [], floors => (floors, [])
  | item :: rest, floors =>
      let floors := upsert issuer now floors item
      let minimum := ((floors.get ⟨issuer, item.subject, item.scope⟩).map (·.minimumRevision)).getD item.minimumRevision
      let (floors, persisted) := upserts issuer now rest floors
      (floors, { item with minimumRevision := minimum } :: persisted)

/-- `reviseBrowserAuthorization` (`state.ts:3751-3819`): the tables, and the floors and the generation it returns. -/
def reviseBrowserAuthorization (tables : BrowserTables) (issuer : String)
    (items : List AuthorizationRevision) (minimumIssuerGeneration : Option Nat) (now : Nat) :
    BrowserTables × List AuthorizationRevision × Nat :=
  let kept := tables.floors.filter fun _ row =>
    now < row.updatedAt + browserAuthorizationFloorRetentionMs
  let generations := match minimumIssuerGeneration with
    | none => tables.generations
    | some told => tables.generations.set issuer (max (tables.generation issuer) told)
  let (floors, persisted) := upserts issuer now items kept
  let tables : BrowserTables := ⟨generations, floors⟩
  (tables, persisted, tables.generation issuer)

end BrowserTables

/-! ## The Relay around them -/

/-- A revision that is committed, which the registry is still to be told of (`index.ts:2833-2847`). -/
structure RevisionInFlight where
  issuer : String
  sent : List AuthorizationRevision
  persisted : List AuthorizationRevision
  issuerGeneration : Nat
  committedAt : Nat
  deriving DecidableEq

/-- A floor the Relay was sent, or kept then, and when it came. -/
structure ReceivedFloor where
  issuer : String
  item : AuthorizationRevision
  receivedAt : Nat
  deriving DecidableEq

/-- The floors of a revision, as they came and as they were kept. -/
def RevisionInFlight.floors (revision : RevisionInFlight) : List ReceivedFloor :=
  (revision.sent ++ revision.persisted).map fun item =>
    ⟨revision.issuer, item, revision.committedAt⟩

/-- A browser's authority, checked against the floors in SQLite. -/
structure BrowserAdmission where
  authority : BrowserSessionAuthority
  current : BrowserAuthority
  configuration : Nat
  deriving DecidableEq

/-- What a browser presents a v2 capability for. -/
inductive BrowserPurpose where
  | connect
  | renewal (socket : Nat)
  | file
  deriving DecidableEq

/-- The registry and the tables of a Relay, and what is between them. `received` and `generations` note the floors and
the issuer generations the Relay has taken in: a revision's once the registry was told of it, or the Relay restarted. -/
structure BrowserRelay where
  limits : BrowserLimits
  registry : BrowserSessionRegistry := {}
  tables : BrowserTables := {}
  inFlight : List RevisionInFlight := []
  admissions : Nat → Option BrowserAdmission := fun _ => none
  received : List ReceivedFloor := []
  generations : List (String × Nat) := []
  now : Nat := 0

inductive BrowserAction where
  | acquirePending (socket : Nat) (peerIp : String) (enforceIp : Bool)
  /-- A v2 capability is validated, and its floors read (`browser-socket.ts:625-709`, `770-808`,
  `transfers/browser-files.ts:270-290`). -/
  | read (n : Nat) (capability : RelayBrowserCapabilityV2) (purpose : BrowserPurpose)
  | readV1 (n : Nat) (authority : BrowserSessionAuthority)
  | activate (n socket : Nat) (isOpen : Bool) (sessionId : String) (renewal : Option (String × Nat))
  | renew (n socket : Nat) (isOpen : Bool) (nonce : String) (nonceExpiresAt : Nat)
  | registerTransfer (n id : Nat)
  | commit (issuer : String) (items : List AuthorizationRevision) (minimumIssuerGeneration : Option Nat)
  | revise (revision : RevisionInFlight)
  /-- A Hearth connects, which prunes the floors (`control-socket.ts:1326-1336`). -/
  | connected (issuer : String)
  | isActive (socket : Nat) (requiredAction : Option String)
  | transferActive (id : Nat)
  /-- The timer of a session fires (`browser-session-registry.ts:374-386`). -/
  | expire (socket : Nat)
  | revokeIssuer (issuer : String)
  | release (socket : Nat)
  | releaseTransfer (id : Nat)
  | restart

namespace BrowserRelay

/-- The scope ID a capability's floors are read with. -/
def scopeId (capability : RelayBrowserCapabilityV2) : BrowserPurpose → Option String
  | .file => some capability.instanceId
  | _ => if capability.kind = .instance' then some capability.instanceId else none

/-- The capability may be presented for this: a renewal answers its session's challenge in time, and a file request is
turned away once its floors are read. -/
def presents (relay : BrowserRelay) (capability : RelayBrowserCapabilityV2)
    (current : BrowserAuthority) : BrowserPurpose → Bool
  | .connect => true
  | .renewal socket =>
      match relay.registry.renewalChallenge socket with
      | none => false
      | some nonceExpiresAt => relay.now < nonceExpiresAt
  | .file =>
      capability.issuerGeneration = current.issuerGeneration &&
        current.minimumRevision ≤ capability.authorizationRevision

/-- The Relay has taken in what was in flight. -/
def takeIn (relay : BrowserRelay) (revisions : List RevisionInFlight) : BrowserRelay :=
  { relay with
    received := relay.received ++ revisions.flatMap RevisionInFlight.floors
    generations := relay.generations ++ revisions.map fun revision =>
      (revision.issuer, revision.issuerGeneration) }

def admitBrowser (relay : BrowserRelay) (n : Nat) (authority : BrowserSessionAuthority)
    (current : BrowserAuthority) : BrowserRelay :=
  { relay with
    admissions := Function.update relay.admissions n (some ⟨authority, current, relay.registry.clientConfiguration⟩) }

/-- What happens at the Relay's current time. -/
def act (relay : BrowserRelay) : BrowserAction → Option BrowserRelay
  | .acquirePending socket peerIp enforceIp =>
      some { relay with
        registry := (relay.registry.acquirePending relay.limits socket peerIp enforceIp).1 }
  | .read n capability purpose =>
      let current := relay.tables.browserAuthority (scopeId capability purpose) capability.issuer
        capability.loginSessionId capability.subject
      if relay.admissions n = none ∧ validateCapabilityV2 capability relay.now ∧
          relay.now < capability.expiresAt ∧ relay.presents capability current purpose then
        some (relay.admitBrowser n (authorityFromCapability capability) current)
      else none
  | .readV1 n authority =>
      if relay.admissions n = none ∧ authority.version = .v1 then
        some (relay.admitBrowser n authority ⟨0, 0⟩)
      else none
  | .activate n socket isOpen sessionId renewal =>
      match relay.admissions n with
      | none => none
      | some admission =>
          if admission.configuration = relay.registry.clientConfiguration then
            some { relay with
              admissions := Function.update relay.admissions n none
              registry := (relay.registry.activate relay.limits socket isOpen admission.authority
                sessionId admission.current renewal relay.now).1 }
          else none
  | .renew n socket isOpen nonce nonceExpiresAt =>
      match relay.admissions n with
      | none => none
      | some admission =>
          if admission.authority.version = .v2 ∧
              admission.authority.issuerGeneration = admission.current.issuerGeneration ∧
              admission.current.minimumRevision ≤ admission.authority.revision then
            some { relay with
              admissions := Function.update relay.admissions n none
              registry := (relay.registry.renew socket isOpen admission.authority nonce nonceExpiresAt relay.now).1 }
          else none
  | .registerTransfer n id =>
      match relay.admissions n with
      | none => none
      | some admission =>
          if admission.configuration = relay.registry.clientConfiguration ∧ relay.registry.transfers.get id = none then
            some { relay with
              admissions := Function.update relay.admissions n none
              registry := relay.registry.registerTransfer id admission.authority admission.current relay.now }
          else none
  | .commit issuer items minimumIssuerGeneration =>
      let (tables, persisted, issuerGeneration) := relay.tables.reviseBrowserAuthorization
        issuer items minimumIssuerGeneration relay.now
      some { relay with
        tables := tables
        inFlight := relay.inFlight ++ [⟨issuer, items, persisted, issuerGeneration, relay.now⟩] }
  | .revise revision =>
      if revision ∈ relay.inFlight then
        some { relay.takeIn [revision] with
          inFlight := relay.inFlight.erase revision
          registry := relay.registry.revise revision.issuer revision.persisted revision.issuerGeneration relay.now }
      else none
  | .connected issuer =>
      some { relay with
        tables := (relay.tables.reviseBrowserAuthorization issuer [] none relay.now).1 }
  | .isActive socket requiredAction =>
      some { relay with registry := (relay.registry.isActive socket requiredAction relay.now).2 }
  | .transferActive id =>
      some { relay with registry := (relay.registry.transferActive id relay.now).2 }
  | .expire socket =>
      match relay.registry.established.get socket with
      | none => none
      | some session =>
          if session.authority.expiresAt ≤ relay.now then
            some { relay with registry := relay.registry.deactivate socket }
          else none
  | .revokeIssuer issuer =>
      some { relay with registry := relay.registry.revokeIssuer issuer }
  | .release socket => some { relay with registry := relay.registry.release socket }
  | .releaseTransfer id => some { relay with registry := relay.registry.releaseTransfer id }
  | .restart =>
      some { relay.takeIn relay.inFlight with
        inFlight := []
        registry := {}
        admissions := fun _ => none }

/-- A step at a time the Relay's clock tells, which never runs back. -/
def next (relay : BrowserRelay) (event : Nat × BrowserAction) : Option BrowserRelay :=
  if relay.now ≤ event.1 then { relay with now := event.1 }.act event.2 else none

/-- A Relay with nothing in its tables, and every run from there. -/
def system (limits : BrowserLimits) : System BrowserRelay (Nat × BrowserAction) :=
  .ofFunction (· = { limits := limits }) next

end BrowserRelay

end Kiln.Relay
