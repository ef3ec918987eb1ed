import Kiln.Hearth.AccessDelivery

/-!
# Ways of asking for a permission

`apps/web/src/lib/access-control.ts` and `schedule-permissions.ts`: a request loads the grants of
one Relay that count at one of its resources, and a page looks through all that someone has. Both
come to what is granted or owned at that scope.
-/

namespace Kiln.Hearth
open Kiln.Lib Kiln.Contracts List

section
variable (catalog : PermissionCatalog) (tables : AccessTables)

/-- `loadResourceGrantsEffect` for every Relay and scope (`resource-permissions.ts:61-186`). -/
def listUserGrants (userId : String) : Option (List ResolvedAccessGrant) :=
  loadGrants catalog tables (fun row => row.userId = userId && row.state = .active)
    fun _ row => row.ownerId = some userId

end

/-- What a permission is asked for at (`access-control.ts:52-57,154-161`). -/
structure PermissionTarget where
  relayId : String
  instanceId : Option String := none
  databaseId : Option String := none
  appId : Option String := none

/-- An ID that counts as true: there, and not empty. -/
def truthy (id : Option String) : Option String := id.filter (· ≠ "")

@[simp] theorem truthy_none : truthy none = none := rfl

theorem truthy_some (id : String) : truthy (some id) = if id = "" then none else some id := by
  by_cases empty : id = "" <;> simp [truthy, empty]

/-- `grantHasPermission` (`permissions.ts:42-47`). -/
def grantHasPermission (grant : ResolvedAccessGrant) (permission : String) : Bool :=
  grant.permissions.contains permission

/-- `grantsAllowPermission` (`access-control.ts:48-76`). -/
def grantsAllowPermission (grants : List ResolvedAccessGrant) (permission : String)
    (target : PermissionTarget) : Bool :=
  grants.any fun grant =>
    grant.scope.relayId = target.relayId && grantHasPermission grant permission && (grant.scope.resourceType = .relay ||
        (grant.scope.resourceType = .instance' && truthy target.instanceId = some grant.scope.resourceId) ||
        (grant.scope.resourceType = .database && truthy target.databaseId = some grant.scope.resourceId) ||
        (grant.scope.resourceType = .app && truthy target.appId = some grant.scope.resourceId))

/-- The scope whose grants a request loads (`access-control.ts:176-186`). -/
def PermissionTarget.scope (target : PermissionTarget) : ResourceScope where
  relayId := target.relayId
  resourceType :=
    if (truthy target.instanceId).isSome then .instance'
    else if (truthy target.databaseId).isSome then .database
    else if (truthy target.appId).isSome then .app
    else .relay
  resourceId := (target.instanceId.or (target.databaseId.or target.appId)).getD target.relayId

/-- `requireRelayPermissionsEffect` (`access-control.ts:151-198`); nothing where it throws. -/
def requireRelayPermissions (catalog : PermissionCatalog) (tables : AccessTables) (user : AuthenticatedUser)
    (now : Nat) (target : PermissionTarget) (permissions : List String) : Option (Except String Unit) :=
  if permissions = [] then some (.error "At least one permission is required")
  else if !isAccountEnabled user.policy now || !isAccountVerified user.policy then
    some (.error "Your account cannot access resources")
  else if isPlatformAdmin user then some (.ok ())
  else
    (loadResourceGrants catalog tables user.id target.relayId (some target.scope)).map fun grants =>
      if permissions.all (grantsAllowPermission grants · target) then .ok ()
      else .error "You do not have permission to perform this action"

/-- `hasScheduleTargetPermission` (`schedule-permissions.ts:77-97`), of a target that is a scope. -/
def hasScheduleTargetPermission (grants : List ResolvedAccessGrant) (permission : String)
    (target : ResourceScope) (user : AuthenticatedUser) : Bool :=
  isPlatformAdmin user ||
    grants.any fun grant =>
      grant.scope.relayId = target.relayId && grantHasPermission grant permission &&
        (grant.scope.resourceType = .relay ||
          (grant.scope.resourceType = target.resourceType && grant.scope.resourceId = target.resourceId))

/-- `allowedInstanceIdsForUser` (`access-control.ts:329-356`), a set there. -/
def allowedInstanceIdsForUser (user : AuthenticatedUser) (now : Nat) (relayId : String)
    (instanceIds : List String) (grants : List ResolvedAccessGrant) : List String :=
  if !isAccountEnabled user.policy now || !isAccountVerified user.policy then []
  else if isPlatformAdmin user then instanceIds
  else
    let relayGrants := grants.filter (·.scope.relayId = relayId)
    if relayGrants.any fun grant => grant.scope.resourceType = .relay && grantHasPermission grant "instance.read" then
      instanceIds
    else
      relayGrants.flatMap fun grant =>
        if grant.scope.resourceType = .instance' && grantHasPermission grant "instance.read" then
          [grant.scope.resourceId]
        else []

/-! ## What each of them comes to -/

variable {catalog : PermissionCatalog} {tables after : AccessTables} {grants : List ResolvedAccessGrant}
  {permission : String} {scope : ResourceScope} {target : PermissionTarget} {userId : String}

theorem mem_effectiveScopePermissions_iff : permission ∈ effectiveScopePermissions grants scope ↔
      ∃ grant ∈ grants, covers grant.scope scope = true ∧ permission ∈ grant.permissions := by
  simp only [effectiveScopePermissions, mem_flatMap]
  refine exists_congr fun grant => and_congr_right fun _ => ?_
  by_cases counts : covers grant.scope scope = true
  · simp [counts]
  · simp [counts]

/-- At most one of an instance, a database and an app is named. -/
structure PermissionTarget.OneAtMost (target : PermissionTarget) : Prop where
  instance_ : target.instanceId ≠ none → target.databaseId = none ∧ target.appId = none
  database : target.databaseId ≠ none → target.appId = none

/-- A grant on a Relay's instance, database or App that a target names. -/
theorem covers_target (one : target.OneAtMost) {granted : ResourceScope} :
    covers granted target.scope = true ↔ granted.relayId = target.relayId ∧ (granted.resourceType = .relay ∨
        granted.resourceType = .instance' ∧ truthy target.instanceId = some granted.resourceId ∨
        granted.resourceType = .database ∧ truthy target.databaseId = some granted.resourceId ∨
        granted.resourceType = .app ∧ truthy target.appId = some granted.resourceId) := by
  rw [covers_iff]
  obtain ⟨relayId, instanceId, databaseId, appId⟩ := target
  obtain ⟨alone, apart⟩ := one
  cases granted with | mk _ type resourceId => ?_
  cases instanceId with
  | some id =>
    obtain ⟨rfl, rfl⟩ := alone nofun
    by_cases empty : id = "" <;>
      cases type <;> simp [PermissionTarget.scope, truthy_some, empty, eq_comm]
  | none =>
    cases databaseId with
    | some id =>
      obtain rfl := apart nofun
      by_cases empty : id = "" <;>
        cases type <;> simp [PermissionTarget.scope, truthy_some, empty, eq_comm]
    | none =>
      cases appId with
      | some id =>
        by_cases empty : id = "" <;>
          cases type <;> simp [PermissionTarget.scope, truthy_some, empty, eq_comm]
      | none => cases type <;> simp [PermissionTarget.scope]

theorem grantsAllowPermission_iff (one : target.OneAtMost) : grantsAllowPermission grants permission target = true ↔
      permission ∈ effectiveScopePermissions grants target.scope := by
  rw [mem_effectiveScopePermissions_iff, grantsAllowPermission, any_eq_true]
  refine exists_congr fun grant => and_congr_right fun _ => ?_
  rw [covers_target one, grantHasPermission]
  simp only [Bool.and_eq_true, Bool.or_eq_true, decide_eq_true_eq, contains_iff_mem, or_assoc]
  tauto

theorem hasScheduleTargetPermission_iff {user : AuthenticatedUser} (plain : isPlatformAdmin user = false) :
    hasScheduleTargetPermission grants permission scope user = true ↔
      permission ∈ effectiveScopePermissions grants scope := by
  rw [mem_effectiveScopePermissions_iff, hasScheduleTargetPermission, plain, Bool.false_or, any_eq_true]
  refine exists_congr fun grant => and_congr_right fun _ => ?_
  rw [covers_iff, grantHasPermission]
  simp only [Bool.and_eq_true, Bool.or_eq_true, decide_eq_true_eq, contains_iff_mem]
  tauto

theorem mem_allowedInstanceIdsForUser {user : AuthenticatedUser} {now : Nat} {relayId id : String}
    {instanceIds : List String} (enabled : isAccountEnabled user.policy now = true)
    (verified : isAccountVerified user.policy = true) (plain : isPlatformAdmin user = false)
    (listed : id ∈ instanceIds) :
    id ∈ allowedInstanceIdsForUser user now relayId instanceIds grants ↔
      "instance.read" ∈ effectiveScopePermissions grants ⟨relayId, .instance', id⟩ := by
  rw [mem_effectiveScopePermissions_iff, allowedInstanceIdsForUser, enabled, verified, plain]
  simp only [Bool.not_true, Bool.or_self, Bool.false_eq_true, if_false, covers_iff]
  split
  · rename_i atRelay
    obtain ⟨grant, here, atRelay⟩ := any_eq_true.mp atRelay
    simp only [mem_filter, Bool.and_eq_true, decide_eq_true_eq, grantHasPermission,
      contains_iff_mem] at here atRelay
    exact iff_of_true listed ⟨grant, here.1, ⟨here.2, Or.inl atRelay.1⟩, atRelay.2⟩
  rename_i nowhere
  simp only [mem_flatMap, mem_filter, decide_eq_true_eq]
  refine exists_congr fun grant => ?_
  constructor
  · rintro ⟨⟨there, onRelay⟩, given⟩
    split at given
    · rename_i atInstance
      simp only [Bool.and_eq_true, decide_eq_true_eq, grantHasPermission, contains_iff_mem] at atInstance
      exact ⟨there, ⟨onRelay, Or.inr ⟨atInstance.1, (mem_singleton.mp given).symm⟩⟩, atInstance.2⟩
    · cases given
  · rintro ⟨there, ⟨onRelay, atRelay | ⟨atInstance, rfl⟩⟩, given⟩
    · refine absurd (any_eq_true.mpr ⟨grant, ?_⟩) nowhere
      simp [there, onRelay, atRelay, given, grantHasPermission]
    · refine ⟨⟨there, onRelay⟩, ?_⟩
      simp [atInstance, given, grantHasPermission]

theorem mem_effectiveScopePermissions_of_listed (sound : Sound catalog tables)
    (loaded : listUserGrants catalog tables userId = some grants) :
    permission ∈ effectiveScopePermissions grants scope ↔ Granted catalog tables userId scope permission ∨
        Owned catalog tables userId scope permission :=
  mem_effectiveScopePermissions sound loaded (fun row loads => by simpa using loads)
    (fun owned row owns => by simpa using owns)
    (fun row holder active _ => by simp [holder, active])
    fun owned row owner _ => by simp [owner]

theorem requireRelayPermissions_iff {user : AuthenticatedUser} {now : Nat}
    {permissions : List String} (sound : Sound catalog tables)
    (enabled : isAccountEnabled user.policy now = true)
    (verified : isAccountVerified user.policy = true) (plain : isPlatformAdmin user = false)
    (loaded : listUserGrants catalog tables user.id = some grants) (one : target.OneAtMost)
    (asked : permissions ≠ []) :
    ∃ answer, requireRelayPermissions catalog tables user now target permissions = some answer ∧ (answer = .ok () ↔
        ∀ permission ∈ permissions, permission ∈ effectiveScopePermissions grants target.scope) := by
  obtain ⟨here, loadedHere⟩ : ∃ here, loadResourceGrants catalog tables user.id target.relayId
      (some target.scope) = some here := Option.isSome_iff_exists.mp (loadGrants_isSome sound)
  have same : ∀ permission, grantsAllowPermission here permission target = true ↔
      permission ∈ effectiveScopePermissions grants target.scope := by
    intro permission
    rw [grantsAllowPermission_iff one, mem_effectiveScopePermissions_of_listed sound loaded]
    exact mem_effectiveScopePermissions sound loadedHere (fun _ => loadsGrant_iff)
      (fun _ _ => ownerId_of_loadsOwned) (fun _ => loadsGrant_of_covers)
      fun _ _ => loadsOwned_of_covers
  simp only [requireRelayPermissions, if_neg asked, enabled, verified, plain, loadedHere,
    Bool.not_true, Bool.or_self, Bool.false_eq_true, if_false, Option.map_some]
  refine ⟨_, rfl, ?_⟩
  rw [← forall₂_congr fun permission _ => same permission, ← all_eq_true]
  split <;> simp [*]

/-! ## What is added allows no less -/

/-- Grants, selections, presets and owners are added to what is stored. -/
structure AccessTables.Extends (tables after : AccessTables) : Prop where
  grants : ∀ id row, tables.grants.get id = some row → ∃ kept, after.grants.get id = some kept ∧
    kept.userId = row.userId ∧ kept.scope = row.scope ∧
    (row.state = .active → kept.state = .active) ∧
    row.assignment.selections ⊆ kept.assignment.selections ∧
    row.assignment.presetIds ⊆ kept.assignment.presetIds ∧
    row.assignment.builtinKeys ⊆ kept.assignment.builtinKeys
  presets : ∀ id row, tables.presets.get id = some row → ∃ kept,
    after.presets.get id = some kept ∧ kept.scope = row.scope ∧ row.selections ⊆ kept.selections
  owners : ∀ owned row owner, tables.resources.get owned = some row → row.ownerId = some owner →
    ∃ kept, after.resources.get owned = some kept ∧ kept.ownerId = some owner
  engines : ∀ scope, (after.resources.get scope).bind (·.engine) = (tables.resources.get scope).bind (·.engine)

theorem AccessTables.Extends.scopeCapabilities (adds : tables.Extends after) :
    scopeCapabilities after scope = Hearth.scopeCapabilities tables scope := by
  rw [Hearth.scopeCapabilities, Hearth.scopeCapabilities, adds.engines]

theorem AccessTables.Extends.granted (adds : tables.Extends after)
    (granted : Granted catalog tables userId scope permission) :
    Granted catalog after userId scope permission := by
  obtain ⟨id, row, stored, holder, active, counts, item, assigned, gives⟩ := granted
  obtain ⟨kept, storedAfter, sameHolder, sameScope, stays, selections, presets, builtins⟩ :=
    adds.grants id row stored
  refine ⟨id, kept, storedAfter, sameHolder.trans holder, stays active, sameScope ▸ counts, item,
    ?_, sameScope ▸ adds.scopeCapabilities ▸ gives⟩
  rw [sameScope]
  rcases assigned with own | ⟨presetId, chosen, inside⟩ | ⟨key, chosen, builtIn⟩
  · exact Or.inl (selections own)
  · refine Or.inr (Or.inl ⟨presetId, presets chosen, ?_⟩)
    unfold presetSelections at inside ⊢
    cases found : tables.presets.get presetId with
    | none => simp [found] at inside
    | some preset =>
      obtain ⟨preset', foundAfter, there, more⟩ := adds.presets presetId preset found
      simp only [found] at inside
      simp only [foundAfter, there]
      split at inside
      · rename_i here
        rw [if_pos here]
        exact more inside
      · cases inside
  · exact Or.inr (Or.inr ⟨key, builtins chosen, builtIn⟩)

theorem AccessTables.Extends.owned (adds : tables.Extends after)
    (owned : Owned catalog tables userId scope permission) :
    Owned catalog after userId scope permission := by
  obtain ⟨resource, row, grant, stored, owner, counts, resolved, given⟩ := owned
  obtain ⟨kept, storedAfter, owner⟩ := adds.owners resource row userId stored owner
  refine ⟨resource, kept, grant, storedAfter, owner, counts, ?_, given⟩
  rwa [resolveOwned, expandResourceGrantPermissions, adds.scopeCapabilities]

/-- What every way of asking gives someone is what `effectiveScopePermissions` gives them over all that they have. -/
structure ChecksAgree (catalog : PermissionCatalog) (tables : AccessTables)
    (user : AuthenticatedUser) (now : Nat) (grants : List ResolvedAccessGrant) : Prop where
  required : ∀ (target : PermissionTarget) permissions, target.OneAtMost → permissions ≠ [] →
    ∃ answer, requireRelayPermissions catalog tables user now target permissions = some answer ∧
      (answer = .ok () ↔ ∀ permission ∈ permissions, permission ∈ effectiveScopePermissions grants target.scope)
  allowed : ∀ (target : PermissionTarget) permission, target.OneAtMost →
    (grantsAllowPermission grants permission target = true ↔ permission ∈ effectiveScopePermissions grants target.scope)
  scheduled : ∀ scope permission, hasScheduleTargetPermission grants permission scope user = true ↔
      permission ∈ effectiveScopePermissions grants scope
  listed : ∀ relayId instanceIds, ∀ id ∈ instanceIds,
    (id ∈ allowedInstanceIdsForUser user now relayId instanceIds grants ↔
      "instance.read" ∈ effectiveScopePermissions grants ⟨relayId, .instance', id⟩)

theorem checksAgree {user : AuthenticatedUser} {now : Nat} (sound : Sound catalog tables)
    (enabled : isAccountEnabled user.policy now = true)
    (verified : isAccountVerified user.policy = true) (plain : isPlatformAdmin user = false)
    (loaded : listUserGrants catalog tables user.id = some grants) :
    ChecksAgree catalog tables user now grants where
  required _ _ one asked :=
    requireRelayPermissions_iff sound enabled verified plain loaded one asked
  allowed _ _ one := grantsAllowPermission_iff one
  scheduled _ _ := hasScheduleTargetPermission_iff plain
  listed _ _ _ := mem_allowedInstanceIdsForUser enabled verified plain

/-- Every way of asking for a permission agrees, and what is added to what is stored turns no
    allowance into a refusal. -/
theorem permissionChecks_agree {user : AuthenticatedUser} {now : Nat} (sound : Sound catalog tables)
    (enabled : isAccountEnabled user.policy now = true)
    (verified : isAccountVerified user.policy = true) (plain : isPlatformAdmin user = false) :
    ∃ grants, listUserGrants catalog tables user.id = some grants ∧
      ChecksAgree catalog tables user now grants ∧
      ∀ after, Sound catalog after → tables.Extends after → ∃ more,
        listUserGrants catalog after user.id = some more ∧
        ChecksAgree catalog after user now more ∧
        ∀ scope,
          effectiveScopePermissions grants scope ⊆ effectiveScopePermissions more scope := by
  obtain ⟨grants, loaded⟩ : ∃ grants, listUserGrants catalog tables user.id = some grants :=
    Option.isSome_iff_exists.mp (loadGrants_isSome sound)
  refine ⟨grants, loaded, checksAgree sound enabled verified plain loaded, ?_⟩
  intro after soundAfter adds
  obtain ⟨more, loadedAfter⟩ : ∃ more, listUserGrants catalog after user.id = some more :=
    Option.isSome_iff_exists.mp (loadGrants_isSome soundAfter)
  refine ⟨more, loadedAfter, checksAgree soundAfter enabled verified plain loadedAfter, ?_⟩
  intro scope permission held
  rw [mem_effectiveScopePermissions_of_listed sound loaded] at held
  rw [mem_effectiveScopePermissions_of_listed soundAfter loadedAfter]
  exact held.imp adds.granted adds.owned

/-- What the guest of a server may do is the same however it is asked. -/
theorem permissionChecks_agree_accepted :
    ∃ grants, listUserGrants filesCatalog acceptedGuest "guest" = some grants ∧
      ChecksAgree filesCatalog acceptedGuest
        { id := "guest", policy := { emailVerifiedAt := some 1 } } 3 grants ∧
      ∀ after, Sound filesCatalog after → acceptedGuest.Extends after → ∃ more,
        listUserGrants filesCatalog after "guest" = some more ∧
        ChecksAgree filesCatalog after
          { id := "guest", policy := { emailVerifiedAt := some 1 } } 3 more ∧
        ∀ scope,
          effectiveScopePermissions grants scope ⊆ effectiveScopePermissions more scope :=
  have unshared : ownedServer.Unshared := ⟨rfl, rfl, rfl, rfl⟩
  have start : (accessSystem filesCatalog (fun id _ => id)).Reachable ownedServer := .init unshared
  have one : (accessSystem filesCatalog (fun id _ => id)).Reachable invitedGuest :=
    start.step (e := inviting) (Option.some_get _).symm
  have reachable : (accessSystem filesCatalog (fun id _ => id)).Reachable acceptedGuest :=
    one.step (e := accepting) (Option.some_get _).symm
  @permissionChecks_agree filesCatalog acceptedGuest
    { id := "guest", policy := { emailVerifiedAt := some 1 } } 3 (sound_of_reachable reachable)
    (by decide) (by decide) (by decide)

/-- However access has been shared, accepted, changed and taken away, a request gets through for just those who may use
their account and are administrators, or who were granted or own all that it asks for. -/
theorem requireRelayPermissions_letsThrough {copiedPresetId : String → ResourceScope → String} {user : AuthenticatedUser} {now : Nat}
    {permissions : List String} (reachable : (accessSystem catalog copiedPresetId).Reachable tables)
    (one : target.OneAtMost) :
    ∃ answer, requireRelayPermissions catalog tables user now target permissions = some answer ∧
      (answer = .ok () ↔ permissions ≠ [] ∧
        isAccountEnabled user.policy now = true ∧ isAccountVerified user.policy = true ∧
        (isPlatformAdmin user = true ∨ ∀ permission ∈ permissions,
          Granted catalog tables user.id target.scope permission ∨ Owned catalog tables user.id target.scope permission)) := by
  have sound := sound_of_reachable reachable
  by_cases asked : permissions = []
  · exact ⟨_, if_pos asked, by simp [asked]⟩
  by_cases refused : (!isAccountEnabled user.policy now || !isAccountVerified user.policy) = true
  · refine ⟨_, (if_neg asked).trans (if_pos refused), ?_⟩
    simp only [Bool.or_eq_true, Bool.not_eq_true'] at refused
    rcases refused with disabled | unverified
    · simp [disabled]
    · simp [unverified]
  obtain ⟨enabled, verified⟩ : isAccountEnabled user.policy now = true ∧ isAccountVerified user.policy = true := by
    simpa using refused
  by_cases admin : isPlatformAdmin user = true
  · refine ⟨_, (if_neg asked).trans ((if_neg refused).trans (if_pos admin)), ?_⟩
    simp [asked, enabled, verified, admin]
  obtain ⟨grants, loaded⟩ : ∃ grants, listUserGrants catalog tables user.id = some grants :=
    Option.isSome_iff_exists.mp (loadGrants_isSome sound)
  obtain ⟨answer, answered, through⟩ :=
    requireRelayPermissions_iff sound enabled verified (Bool.eq_false_iff.mpr admin) loaded one asked
  refine ⟨answer, answered, through.trans ?_⟩
  simp only [mem_effectiveScopePermissions_of_listed sound loaded, asked, enabled, verified, admin, ne_eq,
    not_false_eq_true, true_and, Bool.false_eq_true, false_or]

/-- Whoever hasn't verified their account is turned away, though they accepted an invitation. -/
theorem requireRelayPermissions_letsThrough_unverified : ∃ answer,
    requireRelayPermissions filesCatalog acceptedGuest { id := "guest", policy := {} } 3
      { relayId := "relay", instanceId := some server.resourceId } ["instance.files.read"] = some answer ∧
      answer ≠ .ok () := by
  have start : (accessSystem filesCatalog (fun id _ => id)).Reachable ownedServer := .init ⟨rfl, rfl, rfl, rfl⟩
  have one : (accessSystem filesCatalog (fun id _ => id)).Reachable invitedGuest :=
    start.step (e := inviting) (Option.some_get _).symm
  have reachable : (accessSystem filesCatalog (fun id _ => id)).Reachable acceptedGuest :=
    one.step (e := accepting) (Option.some_get _).symm
  obtain ⟨answer, answered, through⟩ := @requireRelayPermissions_letsThrough filesCatalog acceptedGuest
    { relayId := "relay", instanceId := some server.resourceId } _ { id := "guest", policy := {} } 3
    ["instance.files.read"] reachable ⟨by simp, by simp⟩
  exact ⟨answer, answered, fun passed => absurd (through.mp passed).2.2.1 (by decide)⟩

end Kiln.Hearth
