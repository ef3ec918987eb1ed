import Kiln.Hearth.AccessPolicy
import Kiln.Lib.Transition

/-!
# Changing who may use what

The transactions of `apps/web/src/server/resource-access.ts` (inviting people, deciding an
invitation, saving and deleting a preset, changing or revoking access), and those that copy and
delete a resource's access (`access-policy-mutations.ts:414-539`, `access-control.ts:361-425`).
Each is one atomic step of the tables, or none where it throws and is rolled back.

A request carries the UUIDs made for it, which must not be in use. `authorize`, which checks the
same permission before the transaction begins, refuses only what the transaction refuses.
-/

namespace Kiln.Hearth
open Kiln.Lib Kiln.Contracts
open Kiln.Relay (AuthorizationScope)

/-- A check that throws unless it is met. -/
def require (met : Bool) : Option Unit := if met then some () else none

@[simp] theorem require_eq_some {met : Bool} {u : Unit} : require met = some u ↔ met = true := by
  cases met <;> simp [require]

/-- `accessGrantScopeTypeSchema` (`access-permissions.ts:11-15`). -/
def isGrantScope (scope : ResourceScope) : Bool := scope.resourceType ≠ .app

/-! ## Inviting (`resource-access.ts:269-449`) -/

/-- One of the `targets` of an invitation, with the IDs made for it. -/
structure InviteTarget where
  scope : ResourceScope
  assignment : AccessAssignment
  accessId : String
  invitationId : String
  deriving DecidableEq, Repr

/-- The inputs of `inviteResourceAccess`. The targets are in the order `compareAccessScopes` puts them in, which is any
order here. -/
structure InviteInput where
  email : String
  newUserId : String
  targets : List InviteTarget
  deriving DecidableEq, Repr

/-- The account of an address, reserved if it is new (`resource-access.ts:286-303`). -/
def reserveAccount (tables : AccessTables) (email newUserId : String) : Option (AccessTables × String) :=
  match tables.users.entries.find? (·.2.email = email) with
  | some entry => some (tables, entry.1)
  | none =>
      if tables.users.has newUserId then none
      else some ({ tables with users := tables.users.set newUserId { email } }, newUserId)

/-- How long an invitation may be accepted (`resource-access.ts:381`). -/
def invitationLifetimeMs : Nat := 7 * 86400000

/-- The rows an invitation to one scope leaves (`resource-access.ts:365-398`). -/
def writeInvitation (tables : AccessTables) (recipient : String) (target : InviteTarget)
    (existing : Option (String × AccessGrantRow)) (now : Nat) : Option AccessTables := do
  let accessId := (existing.map (·.1)).getD target.accessId
  require (existing.isSome || !tables.grants.has accessId)
  require (!tables.invitations.has target.invitationId)
  let grant : AccessGrantRow :=
    { userId := recipient
      scope := target.scope
      state := .pending
      revision := (existing.map (·.2.revision + 1)).getD 1
      assignment := AccessTables.stored target.assignment }
  let written := { tables with grants := tables.grants.set accessId grant }
  let cancelled := written.cancelPendingInvitations accessId now
  let invitation : InvitationRow :=
    { accessId := accessId
      userId := recipient
      scope := target.scope
      expiresAt := now + invitationLifetimeMs }
  some { cancelled with
    invitations := cancelled.invitations.set target.invitationId invitation }

/-- One turn of the loop over the targets (`resource-access.ts:315-427`). -/
def inviteTarget (catalog : PermissionCatalog) (tables : AccessTables) (actor : AuthenticatedUser)
    (recipient : String) (grants : List ResolvedAccessGrant) (now : Nat) (target : InviteTarget) :
    Option AccessTables := do
  let resource ← lockAccessScope tables target.scope
  let authority ← scopeAuthority catalog actor target.scope "access.invite" (some grants)
  let proposed ← resolveAssignment catalog tables target.scope target.assignment false
  require (assertDelegation authority proposed [])
  require (!proposed.isEmpty)
  let existing := tables.grantOf recipient target.scope
  if existing.any (·.2.state = .active) || resource.ownerId = some recipient then some tables
  else writeInvitation tables recipient target existing now

/-- The actor's grants on a Relay, loaded unless they were (`resource-access.ts:317-325`). -/
def actorRelayGrants (catalog : PermissionCatalog) (tables : AccessTables)
    (actor : AuthenticatedUser) (actorGrants : OrderedMap String (List ResolvedAccessGrant))
    (relayId : String) : Option (List ResolvedAccessGrant) :=
  match actorGrants.get relayId with
  | some grants => some grants
  | none => loadResourceGrants catalog tables actor.id relayId none

/-- The loop over the targets, with the actor's grants loaded once for each Relay. -/
def inviteTargets (catalog : PermissionCatalog) (actor : AuthenticatedUser) (recipient : String) (now : Nat) :
    List InviteTarget → OrderedMap String (List ResolvedAccessGrant) → AccessTables → Option AccessTables
  | [], _, tables => some tables
  | target :: rest, actorGrants, tables => do
      let relayId := target.scope.relayId
      let grants ← actorRelayGrants catalog tables actor actorGrants relayId
      let tables ← inviteTarget catalog tables actor recipient grants now target
      inviteTargets catalog actor recipient now rest (actorGrants.set relayId grants) tables

/-- `inviteResourceAccessHandler`. -/
def inviteResourceAccess (catalog : PermissionCatalog) (tables : AccessTables)
    (user : AuthenticatedUser) (input : InviteInput) (now : Nat) : Option AccessTables := do
  require (input.targets.all (isGrantScope ·.scope))
  require (decide (input.targets.map (·.scope)).Nodup)
  let actor ← lockAccessActor tables user now
  let reserved ← reserveAccount tables input.email input.newUserId
  inviteTargets catalog actor reserved.2 now input.targets .empty reserved.1

/-! ## Deciding an invitation (`resource-access.ts:590-746`) -/

inductive Decision where
  | accept
  | decline
  | cancel
  deriving DecidableEq, Repr

structure DecideInput where
  id : String
  decision : Decision
  force : Bool := false
  deriving DecidableEq, Repr

/-- The scope of an invitation, that of its grant (`resource-access.ts:602-609`). -/
def invitationScope (tables : AccessTables) (id : String) : Option ResourceScope :=
  (tables.invitations.get id).bind fun invitation =>
    (tables.grants.get invitation.accessId).map (·.scope)

/-- An invitation that can be decided still (`resource-access.ts:689-695`). -/
def InvitationRow.isPending (invitation : InvitationRow) (now : Nat) : Bool :=
  invitation.acceptedAt.isNone && invitation.declinedAt.isNone && invitation.revokedAt.isNone &&
    invitation.cancelledAt.isNone && now < invitation.expiresAt

/-- Who may make a decision (`resource-access.ts:674-684`). -/
def mayDecide (catalog : PermissionCatalog) (tables : AccessTables) (actor : AuthenticatedUser)
    (scope : ResourceScope) (invitation : InvitationRow) (input : DecideInput) : Bool :=
  if input.force && (!isPlatformAdmin actor || input.decision ≠ .accept) then false
  else if input.decision = .cancel then
    (scopeAuthority catalog actor scope "access.manage"
      (loadResourceGrants catalog tables actor.id scope.relayId (some scope))).isSome
  else input.force || invitation.userId = actor.id

/-- A grant that was accepted (`resource-access.ts:704-707`). -/
def AccessGrantRow.accepted (row : AccessGrantRow) : AccessGrantRow :=
  if row.state = .pending then { row with state := .active, revision := row.revision + 1 } else row

/-- `decideResourceInvitationHandler`, given the scope its `authorize` found. -/
def decideResourceInvitation (catalog : PermissionCatalog) (tables : AccessTables)
    (user : AuthenticatedUser) (scope : ResourceScope) (input : DecideInput) (now : Nat) :
    Option AccessTables := do
  let actor ← lockAccessActor tables user now
  let _ ← lockAccessScope tables scope
  let invitation ← tables.invitations.get input.id
  let _ ← tables.grants.get invitation.accessId
  require (mayDecide catalog tables actor scope invitation input)
  if invitation.acceptedAt.isSome && input.decision = .accept then some tables
  else if invitation.declinedAt.isSome && input.decision = .decline then some tables
  else if !invitation.isPending now then none
  else
    match input.decision with
    | .accept =>
        let tables := tables.updateInvitation input.id ({ · with acceptedAt := some now })
        let tables := tables.updateGrant invitation.accessId AccessGrantRow.accepted
        advanceScopeAccess tables invitation.userId scope
    | .decline => some (tables.updateInvitation input.id ({ · with declinedAt := some now }))
    | .cancel =>
        some (tables.updateInvitation input.id ({ · with revokedAt := some now, cancelledAt := some now }))

/-! ## Presets (`resource-access.ts:748-955`) -/

/-- The inputs of `savePermissionPreset`, with the ID made for a new one. -/
structure SavePresetInput where
  scope : ResourceScope
  id : Option String
  revision : Option Nat
  selections : List PermissionSelection
  newId : String
  deriving DecidableEq, Repr

/-- The preset that is edited, or none where one is made (`resource-access.ts:809-828`). -/
def editedPreset (tables : AccessTables) (input : SavePresetInput) : Option (Option PresetRow) :=
  match input.id with
  | none => some none
  | some id =>
      (tables.presets.get id).bind fun preset =>
        if preset.scope = input.scope && some preset.revision = input.revision then
          some (some preset)
        else none

/-- The people whose active grants use a preset (`resource-access.ts:864-867`). -/
def presetUsers (tables : AccessTables) (id : String) : List String :=
  ((tables.grants.entries.filter fun entry =>
    entry.2.assignment.presetIds.contains id && entry.2.state = .active).map (·.2.userId)).dedup

/-- `advanceScopeAccessEffect` for each of several people. -/
def advanceAll (scope : ResourceScope) : List String → AccessTables → Option AccessTables
  | [], tables => some tables
  | userId :: rest, tables => (advanceScopeAccess tables userId scope).bind (advanceAll scope rest)

/-- `savePermissionPresetHandler`. -/
def savePermissionPreset (catalog : PermissionCatalog) (tables : AccessTables)
    (user : AuthenticatedUser) (input : SavePresetInput) (now : Nat) : Option AccessTables := do
  require (isGrantScope input.scope)
  let scope := input.scope
  let actor ← lockAccessActor tables user now
  let _ ← lockAccessScope tables scope
  let authority ← scopeAuthority catalog actor scope
    (if input.id.isSome then "preset.manage" else "preset.create")
    (loadResourceGrants catalog tables actor.id scope.relayId (some scope))
  let capabilities ← requireScopeCapabilities tables scope
  let proposed ←
    catalog.expandPermissionSelections input.selections scope.resourceType capabilities
  let edited ← editedPreset tables input
  let previous ← catalog.expandStoredSelections ((edited.map (·.selections)).getD [])
    scope.resourceType capabilities
  require (assertDelegation authority proposed previous)
  let id := input.id.getD input.newId
  require (input.id.isSome || !tables.presets.has id)
  let preset : PresetRow :=
    { scope := scope
      revision := (edited.map (·.revision + 1)).getD 1
      selections := input.selections.dedup }
  let saved := { tables with presets := tables.presets.set id preset }
  advanceAll scope (presetUsers saved id) saved

structure DeletePresetInput where
  scope : ResourceScope
  id : String
  revision : Nat
  deriving DecidableEq, Repr

/-- An assignment without a preset. -/
def AccessAssignment.without (assignment : AccessAssignment) (id : String) : AccessAssignment :=
  { assignment with presetIds := assignment.presetIds.filter (· ≠ id) }

/-- `deletePermissionPresetHandler`. -/
def deletePermissionPreset (catalog : PermissionCatalog) (tables : AccessTables)
    (user : AuthenticatedUser) (input : DeletePresetInput) (now : Nat) : Option AccessTables := do
  require (isGrantScope input.scope)
  let scope := input.scope
  let actor ← lockAccessActor tables user now
  let _ ← lockAccessScope tables scope
  let _ ← scopeAuthority catalog actor scope "preset.manage"
    (loadResourceGrants catalog tables actor.id scope.relayId (some scope))
  require (tables.grants.entries.all fun entry =>
    !(entry.2.assignment.presetIds.contains input.id && entry.2.state ≠ .revoked))
  let preset ← tables.presets.get input.id
  require (preset.scope = scope && preset.revision = input.revision)
  some { tables with
    grants := tables.grants.mapValues fun _ row =>
      if row.state = .revoked then { row with assignment := row.assignment.without input.id }
      else row
    presets := tables.presets.delete input.id }

/-! ## Changing and revoking access (`resource-access.ts:957-1118`) -/

structure UpdateAccessInput where
  scope : ResourceScope
  id : String
  revision : Nat
  assignment : AccessAssignment
  revoke : Bool := false
  deriving DecidableEq, Repr

/-- The rows a change leaves, once the actor may make it (`resource-access.ts:1020-1068`). -/
def changeAccess (catalog : PermissionCatalog) (tables : AccessTables) (authority : List String)
    (grant : AccessGrantRow) (input : UpdateAccessInput) (now : Nat) : Option AccessTables :=
  if input.revoke then
    let tables := tables.cancelPendingInvitations input.id now
    some (tables.updateGrant input.id fun row =>
      { row with state := .revoked, revision := row.revision + 1 })
  else do
    let previous ← resolveAssignment catalog tables input.scope grant.assignment true
    let proposed ← resolveAssignment catalog tables input.scope input.assignment false
    require (assertDelegation authority proposed previous)
    some (tables.updateGrant input.id fun row =>
      { row with
        assignment := AccessTables.stored input.assignment
        revision := row.revision + 1 })

/-- `updateResourceAccessHandler`. -/
def updateResourceAccess (catalog : PermissionCatalog) (tables : AccessTables)
    (user : AuthenticatedUser) (input : UpdateAccessInput) (now : Nat) : Option AccessTables := do
  require (isGrantScope input.scope)
  let scope := input.scope
  let actor ← lockAccessActor tables user now
  let resource ← lockAccessScope tables scope
  let authority ← scopeAuthority catalog actor scope "access.manage"
    (loadResourceGrants catalog tables actor.id scope.relayId (some scope))
  let grant ← tables.grants.get input.id
  require (grant.scope = scope && resource.ownerId ≠ some grant.userId && grant.revision = input.revision)
  let changed ← changeAccess catalog tables authority grant input now
  advanceScopeAccess changed grant.userId scope

/-! ## Copying and deleting a resource's access -/

/-- A preset copied to another resource, unless its copy is there already (`access-policy-mutations.ts:451-482`). -/
def copyPreset (toScope : ResourceScope) (copiedId : String) (preset : PresetRow)
    (tables : AccessTables) : AccessTables :=
  if tables.presets.has copiedId then tables
  else { tables with presets := tables.presets.set copiedId ⟨toScope, 1, preset.selections⟩ }

/-- An assignment of a source's grant, with the copies of its presets (`access-policy-mutations.ts:508-531`). -/
def copyAssignment (copied : OrderedMap String String) (assignment : AccessAssignment) :
    AccessAssignment :=
  { assignment with presetIds := assignment.presetIds.filterMap copied.get }

/-- The grants copied to another resource, each under the next of the IDs made for them
(`access-policy-mutations.ts:489-534`). -/
def copyGrants (copied : OrderedMap String String) (toScope : ResourceScope) (owner : Option String) :
    List AccessGrantRow → List String → AccessTables → Option AccessTables
  | [], _, tables => some tables
  | row :: rest, ids, tables =>
      if some row.userId = owner || (tables.grantOf row.userId toScope).isSome then
        copyGrants copied toScope owner rest ids tables
      else
        match ids with
        | [] => none
        | id :: ids =>
            if tables.grants.has id then none
            else
              let grant : AccessGrantRow :=
                ⟨row.userId, toScope, .active, 1, copyAssignment copied row.assignment⟩
              (advanceScopeAccess { tables with grants := tables.grants.set id grant }
                row.userId toScope).bind (copyGrants copied toScope owner rest ids)

/-- `copyInstanceAccessEffect` (`access-policy-mutations.ts:414-545`). `copiedPresetId` is a digest of a preset's ID and
the server it is copied to. -/
def copyInstanceAccess (copiedPresetId : String → ResourceScope → String) (tables : AccessTables)
    (fromScope toScope : ResourceScope) (ids : List String) : Option AccessTables := do
  require (fromScope.resourceType = .instance' && toScope.resourceType = .instance')
  let _ ← lockAccessScope tables fromScope
  let target ← lockAccessScope tables toScope
  let presets := tables.presets.entries.filter (·.2.scope = fromScope)
  let copied := OrderedMap.ofEntries (presets.map fun entry => (entry.1, copiedPresetId entry.1 toScope))
  let tables := presets.foldl (fun tables entry =>
    copyPreset toScope (copiedPresetId entry.1 toScope) entry.2 tables) tables
  let grants := (tables.grants.entries.map (·.2)).filter fun row =>
    row.scope = fromScope && row.state = .active
  copyGrants copied toScope target.ownerId grants ids tables

/-- `deleteResourceAccessEffect` (`access-control.ts:361-425`). A preset a grant still uses can't be deleted
(`kiln_access_preset_preset_fk`). -/
def deleteResourceAccess (tables : AccessTables) (scope : ResourceScope) (now : Nat) :
    Option AccessTables := do
  require (scope.resourceType = .instance' || scope.resourceType = .database)
  let users := (tables.grants.entries.filter (·.2.scope = scope)).map (·.2.userId)
  let left := { tables with
    grants := tables.grants.filter fun _ row => row.scope ≠ scope
    invitations := tables.invitations.filter fun _ row =>
      !(row.scope = scope && row.acceptedAt.isNone && row.revokedAt.isNone && now < row.expiresAt) }
  require (left.grants.entries.all fun entry => entry.2.assignment.presetIds.all fun id =>
    (left.presets.get id).all (·.scope ≠ scope))
  advanceAll scope users { left with presets := left.presets.filter fun _ row => row.scope ≠ scope }

/-! ## Every transaction -/

/-- One delivery a Relay acknowledged (`authorization-delivery.ts:310-334`). -/
def acknowledgeDelivery (relayId : String) (tables : AccessTables)
    (item : Kiln.Relay.AuthorizationRevision) : AccessTables :=
  let id : DeliveryId := ⟨relayId, item.subject, item.scope⟩
  match tables.deliveries.get id with
  | none => tables
  | some row =>
      let acknowledged :=
        max row.acknowledgedRevision (min item.minimumRevision row.desiredRevision)
      { tables with
        deliveries :=
          if row.desiredRevision = acknowledged then tables.deliveries.delete id
          else tables.deliveries.set id { row with acknowledgedRevision := acknowledged } }

/-- A transaction on the tables. The last four are what the rest of Hearth does: accounts and resources change and
change hands, a revision advances for another reason, and a Relay's acknowledgement is noted. -/
inductive AccessAction where
  | invite (user : AuthenticatedUser) (input : InviteInput)
  | decide (user : AuthenticatedUser) (input : DecideInput)
  | savePreset (user : AuthenticatedUser) (input : SavePresetInput)
  | deletePreset (user : AuthenticatedUser) (input : DeletePresetInput)
  | updateAccess (user : AuthenticatedUser) (input : UpdateAccessInput)
  | copyInstance (fromScope toScope : ResourceScope) (ids : List String)
  | deleteResource (scope : ResourceScope)
  | account (id : String) (row : Option UserRow)
  | resource (scope : ResourceScope) (row : Option ResourceRow)
  | advance (userId : String) (targets : List (String × AuthorizationScope))
  | acknowledge (relayId : String) (items : List Kiln.Relay.AuthorizationRevision)
  deriving DecidableEq, Repr

/-- A row saved, or deleted. -/
def putRow {α β : Type*} [DecidableEq α] (rows : OrderedMap α β) (key : α) : Option β → OrderedMap α β
  | some row => rows.set key row
  | none => rows.delete key

/-- What a transaction leaves, committed at a time. -/
def nextAccess (catalog : PermissionCatalog) (copiedPresetId : String → ResourceScope → String)
    (tables : AccessTables) (event : Nat × AccessAction) : Option AccessTables :=
  let now := event.1
  match event.2 with
  | .invite user input => inviteResourceAccess catalog tables user input now
  | .decide user input =>
      (invitationScope tables input.id).bind fun scope =>
        decideResourceInvitation catalog tables user scope input now
  | .savePreset user input => savePermissionPreset catalog tables user input now
  | .deletePreset user input => deletePermissionPreset catalog tables user input now
  | .updateAccess user input => updateResourceAccess catalog tables user input now
  | .copyInstance fromScope toScope ids =>
      copyInstanceAccess copiedPresetId tables fromScope toScope ids
  | .deleteResource scope => deleteResourceAccess tables scope now
  | .account id row => some { tables with users := putRow tables.users id row }
  | .resource scope row => some { tables with resources := putRow tables.resources scope row }
  | .advance userId targets => tables.advanceAuthorizationRevision userId targets
  | .acknowledge relayId items => some (items.foldl (acknowledgeDelivery relayId) tables)

/-- No one has been given access yet. -/
def AccessTables.Unshared (tables : AccessTables) : Prop :=
  tables.grants = .empty ∧ tables.presets = .empty ∧ tables.invitations = .empty ∧ tables.deliveries = .empty

/-- Hearth's access, from before anyone was given any. -/
def accessSystem (catalog : PermissionCatalog) (copiedPresetId : String → ResourceScope → String) :
    System AccessTables (Nat × AccessAction) :=
  .ofFunction AccessTables.Unshared (nextAccess catalog copiedPresetId)

end Kiln.Hearth
