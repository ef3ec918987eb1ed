import Kiln.Contracts.Permissions
import Kiln.Lib.OrderedMap
import Kiln.Relay.BrowserSessions

/-!
# Who may use what, as Hearth stores it

The tables of `apps/web/src/migrations/baseline-schema.ts` behind people's access, what is read
of them (`apps/web/src/lib/resource-permissions.ts`), and what a transaction that changes them
checks and writes (`access-policy-mutations.ts`, `authorization-revision.ts`,
`account-policy.ts`, all in `apps/web/src/lib`).

A statement is what it reads of the tables or leaves of them; what throws is `none`. IDs are
compared as they are written. Names, audit events and notifications are left out.
-/

namespace Kiln.Hearth
open Kiln.Lib Kiln.Contracts
open Kiln.Relay (AuthorizationScope maxSafeInteger)

/-! ## Accounts -/

/-- The columns an account's policy is read from (`account-policy.ts:1-9`). Times that are kept are dates, never 0. -/
structure AccountPolicy where
  disabled : Bool := false
  statusExpiresAt : Option Nat := none
  emailVerifiedAt : Option Nat := none
  manuallyVerifiedAt : Option Nat := none
  legacyVerificationRecordedAt : Option Nat := none
  deriving DecidableEq, Repr

/-- `isAccountEnabled` (`account-policy.ts:11-17`). -/
def isAccountEnabled (policy : AccountPolicy) (now : Nat) : Bool :=
  !policy.disabled || policy.statusExpiresAt.any (· ≤ now)

/-- `isAccountVerified` (`account-policy.ts:20-26`). -/
def isAccountVerified (policy : AccountPolicy) : Bool :=
  policy.emailVerifiedAt.isSome || policy.manuallyVerifiedAt.isSome ||
    policy.legacyVerificationRecordedAt.isSome

/-- `accountPolicyFromRow` (`account-policy.ts:42-66`). -/
def accountPolicyFromRow (row : AccountPolicy) (now : Nat) : AccountPolicy :=
  { row with disabled := row.disabled && row.statusExpiresAt.all (now < ·) }

/-- `AuthenticatedUser["role"]`. -/
inductive PlatformRole where
  | admin
  | relayCreator
  | user
  deriving DecidableEq, Repr

/-- A row of `user`, as far as access reads it. -/
structure UserRow where
  email : String
  role : PlatformRole := .user
  policy : AccountPolicy := {}
  deriving DecidableEq, Repr

/-- `AuthenticatedUser`, as far as access reads it. -/
structure AuthenticatedUser where
  id : String
  isDevelopmentBypass : Bool := false
  role : PlatformRole := .user
  policy : AccountPolicy := {}
  deriving DecidableEq, Repr

/-- `isPlatformAdmin` (`access-control.ts:88-90`). -/
def isPlatformAdmin (user : AuthenticatedUser) : Bool :=
  user.isDevelopmentBypass || user.role = .admin

/-! ## The tables -/

/-- `ResourceScope` (`resource-permissions.ts:20-24`). -/
structure ResourceScope where
  relayId : String
  resourceType : PermissionScopeType
  resourceId : String
  deriving DecidableEq, Repr

/-- A Relay's own scope. -/
def relayScope (relayId : String) : ResourceScope := ⟨relayId, .relay, relayId⟩

/-- `DatabaseEngine`. -/
inductive DatabaseEngine where
  | mysql
  | mariadb
  | postgres
  | redis
  | valkey
  deriving DecidableEq, Repr

/-- A row of `relay`, `instance`, `database` or `app`, under its scope. -/
structure ResourceRow where
  ownerId : Option String := none
  engine : Option DatabaseEngine := none
  deriving DecidableEq, Repr

/-- `access_grant.state`. -/
inductive GrantState where
  | pending
  | active
  | revoked
  deriving DecidableEq, Repr

/-- `AccessAssignment` (`access-policy-mutations.ts:48-52`). -/
structure AccessAssignment where
  selections : List PermissionSelection := []
  presetIds : List String := []
  builtinKeys : List String := []
  deriving DecidableEq, Repr

/-- A row of `access_grant`, with the rows of `access_selection` and `access_preset` that go with it. -/
structure AccessGrantRow where
  userId : String
  scope : ResourceScope
  state : GrantState
  revision : Nat
  assignment : AccessAssignment
  deriving DecidableEq, Repr

/-- A row of `permission_preset`, with its rows of `preset_selection`. -/
structure PresetRow where
  scope : ResourceScope
  revision : Nat
  selections : List PermissionSelection
  deriving DecidableEq, Repr

/-- A row of `invitation` to a scope. -/
structure InvitationRow where
  accessId : String
  userId : String
  scope : ResourceScope
  expiresAt : Nat
  acceptedAt : Option Nat := none
  declinedAt : Option Nat := none
  revokedAt : Option Nat := none
  cancelledAt : Option Nat := none
  deriving DecidableEq, Repr

/-- The primary key of `authorization_delivery`. -/
structure DeliveryId where
  relayId : String
  subjectId : String
  scope : AuthorizationScope
  deriving DecidableEq, Repr

/-- The rest of a row of `authorization_delivery`. -/
structure DeliveryRow where
  desiredRevision : Nat
  acknowledgedRevision : Nat := 0
  deriving DecidableEq, Repr

structure AccessTables where
  users : OrderedMap String UserRow := .empty
  resources : OrderedMap ResourceScope ResourceRow := .empty
  grants : OrderedMap String AccessGrantRow := .empty
  presets : OrderedMap String PresetRow := .empty
  invitations : OrderedMap String InvitationRow := .empty
  subjects : OrderedMap String Nat := .empty
  deliveries : OrderedMap DeliveryId DeliveryRow := .empty
  deriving DecidableEq

namespace AccessTables

/-- A subject's revision, which `authorization_subject` need not have a row for. -/
def revision (tables : AccessTables) (userId : String) : Nat :=
  (tables.subjects.get userId).getD 0

/-- The grant someone has at a scope: one at most, by `kiln_access_grant_scope_unique`. -/
def grantOf (tables : AccessTables) (userId : String) (scope : ResourceScope) : Option (String × AccessGrantRow) :=
  tables.grants.entries.find? fun entry => entry.2.userId = userId && entry.2.scope = scope

end AccessTables

/-! ## What someone's grants are -/

/-- `ResolvedAccessGrant` (`resource-permissions.ts:31-35`). -/
structure ResolvedAccessGrant where
  scope : ResourceScope
  permissions : List String
  deriving DecidableEq, Repr

/-- `databaseScopeCapabilities` (`resource-permissions.ts:254-265`). -/
def databaseScopeCapabilities (engine : Option DatabaseEngine) : List String :=
  if engine ∈ [some .mysql, some .mariadb, some .postgres] then
    ["database.logical-backups", "database.sql"]
  else []

/-- The capabilities a grant at a scope is expanded with (`resource-permissions.ts:192-195`). -/
def scopeCapabilities (tables : AccessTables) (scope : ResourceScope) : Option (List String) :=
  if scope.resourceType = .database then
    some (databaseScopeCapabilities ((tables.resources.get scope).bind (·.engine)))
  else none

/-- `appOwnerSelections` (`resource-permissions.ts:54-58`). -/
def appOwnerSelections : List PermissionSelection :=
  [⟨.permission, "app.read"⟩, ⟨.permission, "app.logs.read"⟩, ⟨.permission, "app.delete"⟩]

/-- What the owner of a resource holds on it (`resource-permissions.ts:177-179`). -/
def ownerSelections : PermissionScopeType → List PermissionSelection
  | .app => appOwnerSelections
  | _ => [⟨.collection, "all"⟩]

section
variable (catalog : PermissionCatalog) (tables : AccessTables)

/-- The selections of a preset that is assigned at a scope it belongs to. -/
def presetSelections (scope : ResourceScope) (id : String) : List PermissionSelection :=
  match tables.presets.get id with
  | some preset => if preset.scope = scope then preset.selections else []
  | none => []

/-- The selections an assignment at a scope comes to (`resource-permissions.ts:92-126`). -/
def assignedSelections (scope : ResourceScope) (assignment : AccessAssignment) :
    Option (List PermissionSelection) :=
  (assignment.builtinKeys.mapM (catalog.builtinPresetSelections · scope.resourceType)).map
    fun builtins =>
      assignment.selections ++ assignment.presetIds.flatMap (presetSelections tables scope) ++ builtins.flatten

/-- `expandResourceGrantPermissions` (`resource-permissions.ts:188-197`). -/
def expandResourceGrantPermissions (scope : ResourceScope) (selections : List PermissionSelection) :
    Option (List String) :=
  catalog.expandStoredSelections selections scope.resourceType (scopeCapabilities tables scope)

/-- A row of `access_grant`, resolved. -/
def resolveGrant (row : AccessGrantRow) : Option ResolvedAccessGrant :=
  (assignedSelections catalog tables row.scope row.assignment).bind fun selections =>
    (expandResourceGrantPermissions catalog tables row.scope selections).map (⟨row.scope, ·⟩)

/-- A resource someone owns, resolved. -/
def resolveOwned (scope : ResourceScope) : Option ResolvedAccessGrant :=
  (expandResourceGrantPermissions catalog tables scope (ownerSelections scope.resourceType)).map (⟨scope, ·⟩)

/-- The `filter` of the grants that are loaded (`resource-permissions.ts:81`). -/
def loadsGrant (userId relayId : String) (scope : Option ResourceScope) (row : AccessGrantRow) :
    Bool :=
  row.userId = userId && row.state = .active && row.scope.relayId = relayId &&
    match scope with
    | none => true
    | some scope =>
        row.scope.resourceType = .relay ||
          (scope.resourceType ≠ .relay && row.scope.resourceType = scope.resourceType &&
            row.scope.resourceId = scope.resourceId)

/-- The resources of a Relay that are loaded as someone's own (`resource-permissions.ts:141-168`). -/
def loadsOwned (userId relayId : String) (scope : Option ResourceScope) (owned : ResourceScope)
    (row : ResourceRow) : Bool :=
  row.ownerId = some userId && owned.relayId = relayId && (owned.resourceType = .relay ||
      match scope with
      | none => true
      | some scope =>
          owned.resourceId =
            if scope.resourceType = owned.resourceType then scope.resourceId else "")

/-- `loadResourceGrantsEffect` for one Relay (`resource-permissions.ts:61-186`). -/
def loadResourceGrants (userId relayId : String) (scope : Option ResourceScope) :
    Option (List ResolvedAccessGrant) := do
  let rows := (tables.grants.entries.map (·.2)).filter (loadsGrant userId relayId scope)
  let granted ← rows.mapM (resolveGrant catalog tables)
  let owned := tables.resources.entries.filter fun entry =>
    loadsOwned userId relayId scope entry.1 entry.2
  let ownedGrants ← owned.mapM fun entry => resolveOwned catalog tables entry.1
  some (granted ++ ownedGrants)

end

/-- A grant at one scope counts at another (`resource-permissions.ts:228-233`). -/
def covers (granted scope : ResourceScope) : Bool :=
  granted.relayId = scope.relayId && (granted.resourceType = .relay ||
      (granted.resourceType = scope.resourceType && granted.resourceId = scope.resourceId))

/-- `effectiveScopePermissions` (`resource-permissions.ts:217-238`), a set there. -/
def effectiveScopePermissions (grants : List ResolvedAccessGrant) (scope : ResourceScope) :
    List String :=
  grants.flatMap fun grant => if covers grant.scope scope then grant.permissions else []

/-! ## What a change checks -/

section
variable (catalog : PermissionCatalog) (tables : AccessTables)

/-- `lockAccessActorEffect` (`access-policy-mutations.ts:55-83`). -/
def lockAccessActor (user : AuthenticatedUser) (now : Nat) : Option AuthenticatedUser :=
  if user.isDevelopmentBypass then some user
  else
    (tables.users.get user.id).bind fun row =>
      let actor := { user with role := row.role, policy := accountPolicyFromRow row.policy now }
      if isAccountEnabled actor.policy now && isAccountVerified actor.policy then some actor
      else none

/-- `lockAccessScopeEffect` (`access-policy-mutations.ts:102-128`). -/
def lockAccessScope (scope : ResourceScope) : Option ResourceRow :=
  (tables.resources.get (relayScope scope.relayId)).bind fun relay =>
    if scope.resourceType = .relay then
      if scope.resourceId = scope.relayId then some relay else none
    else tables.resources.get scope

/-- `scopeAuthorityEffect` (`access-policy-mutations.ts:135-173`), given what the actor's grants are, where they must be
loaded. -/
def scopeAuthority (actor : AuthenticatedUser) (scope : ResourceScope) (permission : String)
    (grants : Option (List ResolvedAccessGrant)) : Option (List String) := do
  let permissions ←
    if isPlatformAdmin actor then
      catalog.expandPermissionSelections [⟨.collection, "all"⟩] scope.resourceType none
    else grants.map (effectiveScopePermissions · scope)
  if permissions.contains permission then some permissions else none

/-- `scopeCapabilitiesEffect` (`access-policy-mutations.ts:363-378`). -/
def requireScopeCapabilities (scope : ResourceScope) : Option (Option (List String)) :=
  if scope.resourceType = .database then
    (tables.resources.get scope).map fun row => some (databaseScopeCapabilities row.engine)
  else some none

/-- `resolveAssignmentEffect` (`access-policy-mutations.ts:176-233`). -/
def resolveAssignment (scope : ResourceScope) (assignment : AccessAssignment) (stored : Bool) :
    Option (List String) := do
  let capabilities ← requireScopeCapabilities tables scope
  let builtins ← assignment.builtinKeys.dedup.mapM
    (catalog.builtinPresetSelections · scope.resourceType)
  let presets ← assignment.presetIds.dedup.mapM fun id =>
    (tables.presets.get id).bind fun preset =>
      if preset.scope = scope then some preset.selections else none
  let selections := assignment.selections ++ builtins.flatten ++ presets.flatten
  if stored then catalog.expandStoredSelections selections scope.resourceType capabilities
  else catalog.expandPermissionSelections selections.dedup scope.resourceType capabilities

/-- `assertDelegation` doesn't throw (`access-policy-mutations.ts:235-248`). -/
def assertDelegation (permissions proposed previous : List String) : Bool :=
  proposed.all fun key => previous.contains key || permissions.contains key

end

/-! ## What a change writes -/

namespace AccessTables

/-- `writeAccessAssignmentEffect` (`access-policy-mutations.ts:250-287`): what is stored of an assignment. -/
def stored (assignment : AccessAssignment) : AccessAssignment :=
  ⟨assignment.selections.dedup, assignment.presetIds.dedup, assignment.builtinKeys.dedup⟩

/-- A grant, changed if it is there. -/
def updateGrant (tables : AccessTables) (id : String) (change : AccessGrantRow → AccessGrantRow) :
    AccessTables :=
  { tables with
    grants := tables.grants.mapValues fun key row => if key = id then change row else row }

/-- An invitation, changed if it is there. -/
def updateInvitation (tables : AccessTables) (id : String) (change : InvitationRow → InvitationRow) : AccessTables :=
  { tables with
    invitations := tables.invitations.mapValues fun key row =>
      if key = id then change row else row }

/-- `cancelPendingInvitationsEffect` (`resource-access.ts:96-114`). -/
def cancelPendingInvitations (tables : AccessTables) (accessId : String) (now : Nat) :
    AccessTables :=
  { tables with
    invitations := tables.invitations.mapValues fun _ row =>
      if row.accessId = accessId && row.acceptedAt.isNone && row.declinedAt.isNone && row.revokedAt.isNone then
        { row with revokedAt := some now, cancelledAt := some now }
      else row }

/-- The upsert of one delivery (`authorization-revision.ts:86-94`). -/
def deliver (tables : AccessTables) (id : DeliveryId) (revision : Nat) : AccessTables :=
  { tables with
    deliveries := tables.deliveries.set id (match tables.deliveries.get id with
      | none => ⟨revision, 0⟩
      | some row => { row with desiredRevision := max row.desiredRevision revision }) }

/-- `advanceAuthorizationRevisionEffect` (`authorization-revision.ts:47-105`): the subject's revision grows by one, for
delivery to each target. -/
def advanceAuthorizationRevision (tables : AccessTables) (userId : String)
    (targets : List (String × AuthorizationScope)) : Option AccessTables :=
  let revision := tables.revision userId + 1
  if revision ≤ maxSafeInteger then
    let tables := { tables with subjects := tables.subjects.set userId revision }
    some (targets.dedup.foldl (fun tables target => tables.deliver ⟨target.1, userId, target.2⟩ revision) tables)
  else none

end AccessTables

/-- The scope a change at a resource is delivered for (`access-policy-mutations.ts:314-317`). -/
def deliveryScope (scope : ResourceScope) : AuthorizationScope :=
  if scope.resourceType = .instance' then .instance' scope.resourceId else .subjectRelay

/-- `advanceScopeAccessEffect` (`access-policy-mutations.ts:304-321`). -/
def advanceScopeAccess (tables : AccessTables) (userId : String) (scope : ResourceScope) :
    Option AccessTables :=
  tables.advanceAuthorizationRevision userId [(scope.relayId, deliveryScope scope)]

end Kiln.Hearth
