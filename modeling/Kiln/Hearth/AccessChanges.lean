import Kiln.Hearth.AccessEffective

/-!
# What each change of access leaves

One lemma for each transaction says which grants and presets it leaves, and what it checked.
From them, what is stored is sound in every reachable state.
-/

namespace Kiln.Hearth
open Kiln.Lib Kiln.Contracts OrderedMap List
open Kiln.Relay (AuthorizationScope maxSafeInteger)

variable {catalog : PermissionCatalog} {copiedPresetId : String → ResourceScope → String}
  {tables after : AccessTables} {scope : ResourceScope} {user actor : AuthenticatedUser}
  {now : Nat} {permission : String}

/-! ## Revisions and their delivery -/

/-- The tables say the same about who may use what. -/
structure SameAccess (tables after : AccessTables) : Prop where
  users : after.users = tables.users
  resources : after.resources = tables.resources
  grants : after.grants = tables.grants
  presets : after.presets = tables.presets

theorem SameAccess.refl (tables : AccessTables) : SameAccess tables tables := ⟨rfl, rfl, rfl, rfl⟩

variable {middle : AccessTables}

theorem SameAccess.trans (first : SameAccess tables middle) (second : SameAccess middle after) :
    SameAccess tables after :=
  ⟨second.users.trans first.users, second.resources.trans first.resources,
    second.grants.trans first.grants, second.presets.trans first.presets⟩

theorem deliver_foldl (userId : String) (revision : Nat)
    (targets : List (String × AuthorizationScope)) (tables : AccessTables) :
    SameAccess tables (targets.foldl
        (fun tables target => tables.deliver ⟨target.1, userId, target.2⟩ revision) tables) ∧
      (targets.foldl (fun tables target => tables.deliver ⟨target.1, userId, target.2⟩ revision)
        tables).subjects = tables.subjects := by
  induction targets generalizing tables with
  | nil => exact ⟨.refl tables, rfl⟩
  | cons target rest ih =>
    obtain ⟨same, subjects⟩ := ih (tables.deliver ⟨target.1, userId, target.2⟩ revision)
    have first : SameAccess tables (tables.deliver ⟨target.1, userId, target.2⟩ revision) :=
      ⟨rfl, rfl, rfl, rfl⟩
    exact ⟨first.trans same, subjects⟩

variable {userId : String}

theorem sameAccess_of_advances {targets : List (String × AuthorizationScope)}
    (advanced : tables.advanceAuthorizationRevision userId targets = some after) :
    SameAccess tables after := by
  rw [AccessTables.advanceAuthorizationRevision, Option.ite_none_right_eq_some] at advanced
  obtain ⟨-, advanced⟩ := advanced
  rw [← Option.some.inj advanced]
  obtain ⟨same, -⟩ := deliver_foldl userId (tables.revision userId + 1) targets.dedup
    { tables with subjects := tables.subjects.set userId (tables.revision userId + 1) }
  exact ⟨same.users, same.resources, same.grants, same.presets⟩

theorem sameAccess_of_advanceAll {users : List String}
    (advanced : advanceAll scope users tables = some after) : SameAccess tables after := by
  induction users generalizing tables with
  | nil =>
    obtain rfl : tables = after := by simpa [advanceAll] using advanced
    exact .refl tables
  | cons userId rest ih =>
    rw [advanceAll, Option.bind_eq_some_iff] at advanced
    obtain ⟨middle, first, rest⟩ := advanced
    exact (sameAccess_of_advances first).trans (ih rest)

/-! ## Actors -/

theorem mem_authority {authority : List String} {name : String} (authorized : scopeAuthority catalog actor scope name
      (loadResourceGrants catalog tables actor.id scope.relayId (some scope)) = some authority)
    (member : isPlatformAdmin actor = false) :
    permission ∈ authority ↔ permission ∈ effectivePermissions catalog tables actor.id scope := by
  simp only [scopeAuthority, member, Bool.false_eq_true, if_false, Option.bind_eq_bind,
    Option.bind_eq_some_iff, Option.map_eq_some_iff, Option.ite_none_right_eq_some,
    Option.some.injEq] at authorized
  obtain ⟨permissions, ⟨grants, loaded, rfl⟩, -, rfl⟩ := authorized
  rw [effectivePermissions, loaded]
  rfl

theorem lockAccessActor_id (locked : lockAccessActor tables user now = some actor) : actor.id = user.id := by
  unfold lockAccessActor at locked
  split at locked
  · rw [← Option.some.inj locked]
  · obtain ⟨row, -, locked⟩ := Option.bind_eq_some_iff.mp locked
    dsimp only at locked
    split at locked
    · rw [← Option.some.inj locked]
    · cases locked

/-! ## Inviting -/

/-- Active grants are as they were, and so are presets, resources and revisions. -/
structure Quiet (tables after : AccessTables) : Prop where
  resources : after.resources = tables.resources
  presets : after.presets = tables.presets
  subjects : after.subjects = tables.subjects
  deliveries : after.deliveries = tables.deliveries
  active : ∀ id row, row.state = .active → (after.grants.get id = some row ↔ tables.grants.get id = some row)

theorem Quiet.refl (tables : AccessTables) : Quiet tables tables :=
  ⟨rfl, rfl, rfl, rfl, fun _ _ _ => Iff.rfl⟩

theorem Quiet.trans (first : Quiet tables middle) (second : Quiet middle after) :
    Quiet tables after :=
  ⟨second.resources.trans first.resources, second.presets.trans first.presets,
    second.subjects.trans first.subjects, second.deliveries.trans first.deliveries,
    fun id row active => (second.active id row active).trans (first.active id row active)⟩

theorem presetSelections_congr (presets : after.presets = tables.presets) (id : String) :
    presetSelections after scope id = presetSelections tables scope id := by
  rw [presetSelections, presetSelections, presets]

theorem Quiet.granted (quiet : Quiet tables after) :
    Granted catalog after userId scope permission ↔ Granted catalog tables userId scope permission := by
  have confers : ∀ row : AccessGrantRow, Confers catalog after row.scope row.assignment permission ↔
        Confers catalog tables row.scope row.assignment permission := fun row =>
    confers_congr (fun id _ => presetSelections_congr quiet.presets id) quiet.resources
  constructor
  · rintro ⟨id, row, stored, holder, active, counts, conferred⟩
    exact ⟨id, row, (quiet.active id row active).mp stored, holder, active, counts, (confers row).mp conferred⟩
  · rintro ⟨id, row, stored, holder, active, counts, conferred⟩
    exact ⟨id, row, (quiet.active id row active).mpr stored, holder, active, counts, (confers row).mpr conferred⟩

/-- Where active grants stay as they are, so does what is effective. -/
theorem Quiet.effective (quiet : Quiet tables after) (sound : Sound catalog tables) (soundAfter : Sound catalog after) :
    permission ∈ effectivePermissions catalog after userId scope ↔
      permission ∈ effectivePermissions catalog tables userId scope := by
  rw [mem_effectivePermissions sound, mem_effectivePermissions soundAfter, quiet.granted, owned_congr quiet.resources]

variable {recipient : String}

theorem inviteTarget_leaves {grants : List ResolvedAccessGrant} {target : InviteTarget}
    (invited : inviteTarget catalog tables actor recipient grants now target = some after) :
    after = tables ∨ ∃ id row authority proposed,
        after.grants = tables.grants.set id row ∧ after.presets = tables.presets ∧
          after.resources = tables.resources ∧ after.users = tables.users ∧
          after.subjects = tables.subjects ∧ after.deliveries = tables.deliveries ∧
          row.state = .pending ∧ row.scope = target.scope ∧
          row.assignment = AccessTables.stored target.assignment ∧
          (∀ old, tables.grants.get id = some old → old.state ≠ .active) ∧
          scopeAuthority catalog actor target.scope "access.invite" (some grants) = some authority ∧
          resolveAssignment catalog tables target.scope target.assignment false = some proposed ∧
          assertDelegation authority proposed [] = true := by
  simp only [inviteTarget, Option.bind_eq_bind, Option.bind_eq_some_iff, require_eq_some] at invited
  obtain ⟨resource, -, authority, authorized, proposed, resolved, _, delegated, _, -, left⟩ :=
    invited
  split at left
  · exact Or.inl (Option.some.inj left).symm
  rename_i fresh
  right
  rw [Bool.or_eq_true, not_or] at fresh
  simp only [writeInvitation, Option.bind_eq_bind, Option.bind_eq_some_iff, require_eq_some, Option.some.injEq] at left
  obtain ⟨_, unused, _, -, rfl⟩ := left
  refine ⟨_, _, authority, proposed, rfl, rfl, rfl, rfl, rfl, rfl, rfl, rfl, rfl, ?_, authorized, resolved, delegated⟩
  intro old stored
  cases existing : tables.grantOf recipient target.scope with
  | none =>
    rw [existing, Option.map_none, Option.getD_none] at stored
    simp [existing, has, stored] at unused
  | some found =>
    rw [existing, Option.map_some, Option.getD_some] at stored
    have entry : (found.1, found.2) ∈ tables.grants.entries := mem_of_find?_eq_some existing
    have same : old = found.2 :=
      Option.some.inj (stored.symm.trans (get_eq_some.mpr entry))
    simpa [existing, same] using fresh.1

theorem inviteTarget_quiet {grants : List ResolvedAccessGrant} {target : InviteTarget} (sound : Sound catalog tables)
    (invited : inviteTarget catalog tables actor recipient grants now target = some after) :
    Quiet tables after ∧ Sound catalog after := by
  rcases inviteTarget_leaves invited with rfl |
    ⟨id, row, authority, proposed, grantsSet, presets, resources, -, subjects, deliveries, pending,
      atScope, assigned, inactive, -, resolved, -⟩
  · exact ⟨.refl _, sound⟩
  refine ⟨⟨resources, presets, subjects, deliveries, fun key old active => ?_⟩, ⟨fun key old stored => ?_, ?_⟩⟩
  · rw [grantsSet, get_set]
    by_cases here : id = key
    · subst here
      rw [if_pos rfl]
      constructor
      · intro same
        rw [← Option.some.inj same, pending] at active
        cases active
      · intro stored
        exact absurd active (inactive old stored)
    · rw [if_neg here]
  · rw [grantsSet, get_set] at stored
    split at stored
    · rw [← Option.some.inj stored, atScope, assigned]
      exact soundAssignment_of_resolves resolved
    · exact sound.grants key old stored
  · rw [presets]
    exact sound.presets

/-- What the loop over the targets of an invitation leaves: each grant is as it was, or is pending in the place of none
or of one that isn't active, with a target's assignment, which confers nothing that the actor doesn't hold. -/
theorem inviteTargets_leave {targets : List InviteTarget}
    {actorGrants : OrderedMap String (List ResolvedAccessGrant)} {base : AccessTables}
    (sound : Sound catalog base) (soundNow : Sound catalog tables) (quiet : Quiet base tables)
    (known : ∀ relayId grants, actorGrants.get relayId = some grants → ∀ scope permission,
      scope.relayId = relayId → permission ∈ effectiveScopePermissions grants scope →
      permission ∈ effectivePermissions catalog base actor.id scope)
    (invited : inviteTargets catalog actor recipient now targets actorGrants tables = some after) :
    Quiet base after ∧ Sound catalog after ∧ ∀ id row, after.grants.get id = some row →
      tables.grants.get id = some row ∨ ∃ target ∈ targets, row.scope = target.scope ∧
          row.assignment = AccessTables.stored target.assignment ∧
          (isPlatformAdmin actor = false → ∀ permission, Confers catalog base row.scope row.assignment permission →
            permission ∈ effectivePermissions catalog base actor.id row.scope) := by
  induction targets generalizing actorGrants tables with
  | nil =>
    obtain rfl : tables = after := by simpa [inviteTargets] using invited
    exact ⟨quiet, soundNow, fun id row stored => Or.inl stored⟩
  | cons target rest ih =>
    simp only [inviteTargets, Option.bind_eq_bind, Option.bind_eq_some_iff] at invited
    obtain ⟨grants, loaded, middle, turn, invited⟩ := invited
    -- what was loaded of the actor's grants is effective as the transaction begins
    have effective : ∀ scope permission, scope.relayId = target.scope.relayId →
        permission ∈ effectiveScopePermissions grants scope →
        permission ∈ effectivePermissions catalog base actor.id scope := by
      intro scope permission sameRelay held
      unfold actorRelayGrants at loaded
      split at loaded
      · rename_i cached
        rw [Option.some.inj loaded] at cached
        exact known _ _ cached scope permission sameRelay held
      · rw [← sameRelay] at loaded
        exact (quiet.effective sound soundNow).mp ((mem_effectivePermissions_of_loaded soundNow loaded).mp held)
    obtain ⟨quietTurn, soundTurn⟩ := inviteTarget_quiet soundNow turn
    have knownNext : ∀ relayId grants', (actorGrants.set target.scope.relayId grants).get relayId =
        some grants' → ∀ scope permission, scope.relayId = relayId →
        permission ∈ effectiveScopePermissions grants' scope →
        permission ∈ effectivePermissions catalog base actor.id scope := by
      intro relayId grants' cached scope permission sameRelay held
      rw [get_set] at cached
      split at cached
      · rename_i here
        rw [Option.some.inj cached.symm] at held
        exact effective scope permission (sameRelay.trans here.symm) held
      · exact known _ _ cached scope permission sameRelay held
    obtain ⟨quietAfter, soundAfter, left⟩ :=
      ih soundTurn (quiet.trans quietTurn) knownNext invited
    refine ⟨quietAfter, soundAfter, fun id row stored => ?_⟩
    rcases left id row stored with here | ⟨other, among, atScope, assigned, delegated⟩
    · rcases inviteTarget_leaves turn with rfl |
        ⟨key, made, authority, proposed, grantsSet, -, -, -, -, -, -, atScope, assigned, -,
          authorized, resolved, delegated⟩
      · exact Or.inl here
      · rw [grantsSet, get_set] at here
        split at here
        · cases here
          refine Or.inr ⟨target, mem_cons_self, atScope, assigned, ?_⟩
          intro member permission conferred
          rw [assigned, confers_stored, atScope] at conferred
          have offered : permission ∈ proposed := by
            rw [mem_resolveAssignment resolved]
            exact (confers_congr (fun id _ => presetSelections_congr quiet.presets id) quiet.resources).mpr conferred
          have held : permission ∈ authority := by
            simpa using all_eq_true.mp delegated permission offered
          simp only [scopeAuthority, member, Bool.false_eq_true, if_false, Option.map_some,
            Option.bind_eq_bind, Option.bind_some, Option.ite_none_right_eq_some,
            Option.some.injEq] at authorized
          rw [← authorized.2] at held
          rw [atScope]
          exact effective target.scope permission rfl held
        · exact Or.inl here
    · exact Or.inr ⟨other, mem_cons_of_mem _ among, atScope, assigned, delegated⟩

theorem invite_leaves {input : InviteInput} (sound : Sound catalog tables)
    (invited : inviteResourceAccess catalog tables user input now = some after) :
    Quiet tables after ∧ Sound catalog after ∧ ∃ actor, lockAccessActor tables user now = some actor ∧
        ∀ id row, after.grants.get id = some row → tables.grants.get id = some row ∨
            ∃ target ∈ input.targets, row.scope = target.scope ∧
              row.assignment = AccessTables.stored target.assignment ∧
              (isPlatformAdmin actor = false → ∀ permission,
                Confers catalog tables row.scope row.assignment permission →
                permission ∈ effectivePermissions catalog tables actor.id row.scope) := by
  simp only [inviteResourceAccess, Option.bind_eq_bind, Option.bind_eq_some_iff, require_eq_some] at invited
  obtain ⟨_, -, _, -, actor, locked, ⟨reserved, recipient⟩, reserves, invited⟩ := invited
  have same : reserved = { tables with users := reserved.users } := by
    unfold reserveAccount at reserves
    split at reserves
    · cases reserves
      rfl
    · split at reserves
      · cases reserves
      · cases reserves
        rfl
  have grants : reserved.grants = tables.grants := by rw [same]
  have presets : reserved.presets = tables.presets := by rw [same]
  have quiet : Quiet tables reserved :=
    ⟨by rw [same], presets, by rw [same], by rw [same], fun id row _ => by rw [grants]⟩
  have soundReserved : Sound catalog reserved :=
    ⟨grants ▸ sound.grants, presets ▸ sound.presets⟩
  obtain ⟨quietAfter, soundAfter, left⟩ :=
    inviteTargets_leave sound soundReserved quiet (by simp) invited
  exact ⟨quietAfter, soundAfter, actor, locked, fun id row stored => grants ▸ left id row stored⟩

/-! ## Deciding -/

theorem decide_leaves {input : DecideInput}
    (decided : decideResourceInvitation catalog tables user scope input now = some after) :
    after.resources = tables.resources ∧ after.presets = tables.presets ∧
      (∃ middle users, middle.subjects = tables.subjects ∧
        middle.deliveries = tables.deliveries ∧ advanceAll scope users middle = some after) ∧
      ∃ change : String → AccessGrantRow → AccessGrantRow,
        (∀ id, after.grants.get id = (tables.grants.get id).map (change id)) ∧
          ∀ id row, (change id row).userId = row.userId ∧ (change id row).scope = row.scope ∧
            (change id row).assignment = row.assignment ∧
            (row.state = .active → (change id row).state = .active) := by
  simp only [decideResourceInvitation, Option.bind_eq_bind, Option.bind_eq_some_iff] at decided
  obtain ⟨-, -, -, -, invitation, -, -, -, -, -, decided⟩ := decided
  have unchanged : ∀ left : AccessTables, left.grants = tables.grants →
      ∃ change : String → AccessGrantRow → AccessGrantRow,
        (∀ id, left.grants.get id = (tables.grants.get id).map (change id)) ∧
          ∀ id row, (change id row).userId = row.userId ∧ (change id row).scope = row.scope ∧
            (change id row).assignment = row.assignment ∧
            (row.state = .active → (change id row).state = .active) := by
    intro left same
    exact ⟨fun _ row => row, fun id => by simp [same], fun _ _ => ⟨rfl, rfl, rfl, fun h => h⟩⟩
  have untold : ∀ left : AccessTables, left.subjects = tables.subjects →
      left.deliveries = tables.deliveries →
      ∃ middle users, middle.subjects = tables.subjects ∧ middle.deliveries = tables.deliveries ∧
        advanceAll scope users middle = some left :=
    fun left subjects deliveries => ⟨left, [], subjects, deliveries, rfl⟩
  split at decided
  · cases decided
    exact ⟨rfl, rfl, untold _ rfl rfl, unchanged _ rfl⟩
  split at decided
  · cases decided
    exact ⟨rfl, rfl, untold _ rfl rfl, unchanged _ rfl⟩
  split at decided
  · cases decided
  · split at decided
    · have same := sameAccess_of_advances decided
      refine ⟨same.resources, same.presets, ⟨_, [invitation.userId], ?_, ?_,
          Option.bind_eq_some_iff.mpr ⟨after, decided, rfl⟩⟩,
        fun key row => if key = invitation.accessId then row.accepted else row,
        fun id => ?_, fun id row => ?_⟩
      · rfl
      · rfl
      · rw [same.grants]
        exact get_mapValues _ _ id
      · dsimp only [AccessGrantRow.accepted]
        split
        · split <;> simp_all
        · exact ⟨rfl, rfl, rfl, fun h => h⟩
    · cases decided
      exact ⟨rfl, rfl, untold _ rfl rfl, unchanged _ rfl⟩
    · cases decided
      exact ⟨rfl, rfl, untold _ rfl rfl, unchanged _ rfl⟩

/-! ## Presets -/

/-- What `requireScopeCapabilities` gives is what grants at the scope are expanded with. -/
theorem scopeCapabilities_of_required {capabilities : Option (List String)}
    (capable : requireScopeCapabilities tables scope = some capabilities) :
    scopeCapabilities tables scope = capabilities := by
  unfold requireScopeCapabilities at capable
  unfold scopeCapabilities
  by_cases isDatabase : scope.resourceType = .database
  · rw [if_pos isDatabase] at capable ⊢
    obtain ⟨row, found, rfl⟩ := Option.map_eq_some_iff.mp capable
    simp [found]
  · rw [if_neg isDatabase] at capable ⊢
    simpa using capable

/-- The preset that a request to save one names, or makes. -/
def SavePresetInput.presetId (input : SavePresetInput) : String := input.id.getD input.newId

/-- What saving a preset leaves: the preset alone, with selections that give nothing but what the preset gave already
and what the actor holds; and the people it counts for are told. -/
theorem savePreset_leaves {input : SavePresetInput}
    (saved : savePermissionPreset catalog tables user input now = some after) :
    ∃ preset actor, preset.scope = input.scope ∧ preset.selections = input.selections.dedup ∧
      lockAccessActor tables user now = some actor ∧
      (∀ old, tables.presets.get input.presetId = some old → old.scope = input.scope) ∧
      (∀ item ∈ input.selections, catalog.Accepts input.scope.resourceType item) ∧
      (isPlatformAdmin actor = false → ∀ item ∈ input.selections, ∀ permission,
        catalog.Gives input.scope.resourceType (scopeCapabilities tables input.scope) item permission →
        (∃ old, tables.presets.get input.presetId = some old ∧ ∃ earlier ∈ old.selections,
          catalog.Gives input.scope.resourceType (scopeCapabilities tables input.scope) earlier permission) ∨
        permission ∈ effectivePermissions catalog tables actor.id input.scope) ∧
      advanceAll input.scope (presetUsers { tables with presets := tables.presets.set input.presetId preset }
          input.presetId)
        { tables with presets := tables.presets.set input.presetId preset } = some after := by
  simp only [savePermissionPreset, Option.bind_eq_bind, Option.bind_eq_some_iff, require_eq_some] at saved
  obtain ⟨_, -, actor, locked, -, -, authority, authorized, capabilities, capable, proposed,
    expands, edited, edits, previous, expandsPrevious, _, delegated, _, unused, advanced⟩ := saved
  have stood : ∀ old, tables.presets.get input.presetId = some old → old.scope = input.scope ∧ edited = some old := by
    intro old stored
    unfold editedPreset at edits
    cases named : input.id with
    | none =>
      rw [SavePresetInput.presetId, named, Option.getD_none] at stored
      simp [named, has, stored] at unused
    | some id =>
      rw [SavePresetInput.presetId, named, Option.getD_some] at stored
      simp only [named, stored, Option.bind_some, Option.ite_none_right_eq_some, Bool.and_eq_true,
        decide_eq_true_eq, Option.some.injEq] at edits
      exact ⟨edits.1.1, edits.2.symm⟩
  have came : ∀ old, edited = some old → tables.presets.get input.presetId = some old := by
    intro old given
    unfold editedPreset at edits
    cases named : input.id with
    | none =>
      rw [named, given] at edits
      cases edits
    | some id =>
      simp only [named, given, Option.bind_eq_some_iff, Option.ite_none_right_eq_some, Option.some.injEq] at edits
      obtain ⟨preset, stored, -, rfl⟩ := edits
      rw [SavePresetInput.presetId, named, Option.getD_some]
      exact stored
  refine ⟨_, actor, rfl, rfl, locked, fun old stored => (stood old stored).1, accepts_of_expands expands, ?_, advanced⟩
  intro member item chosen permission gives
  rw [scopeCapabilities_of_required capable] at gives ⊢
  have offered : permission ∈ proposed :=
    (mem_expandPermissionSelections expands).mpr ⟨item, chosen, gives⟩
  have allowed := all_eq_true.mp delegated permission offered
  rw [Bool.or_eq_true, contains_iff_mem, contains_iff_mem] at allowed
  rcases allowed with before | held
  · obtain ⟨earlier, among, gave⟩ := (mem_expandStoredSelections expandsPrevious).mp before
    cases edited with
    | none => simp at among
    | some old => exact Or.inl ⟨old, came old rfl, earlier, among, gave⟩
  · exact Or.inr ((mem_authority authorized member).mp held)

theorem deletePreset_leaves {input : DeletePresetInput}
    (deleted : deletePermissionPreset catalog tables user input now = some after) :
    after.resources = tables.resources ∧ after.presets = tables.presets.delete input.id ∧
      after.subjects = tables.subjects ∧ after.deliveries = tables.deliveries ∧
      (∀ id, after.grants.get id = (tables.grants.get id).map fun row =>
        if row.state = .revoked then { row with assignment := row.assignment.without input.id }
        else row) ∧
      ∀ id row, tables.grants.get id = some row → row.state ≠ .revoked → input.id ∉ row.assignment.presetIds := by
  simp only [deletePermissionPreset, Option.bind_eq_bind, Option.bind_eq_some_iff,
    require_eq_some, Option.some.injEq] at deleted
  obtain ⟨_, -, -, -, -, -, -, -, _, unused, -, -, _, -, rfl⟩ := deleted
  refine ⟨rfl, rfl, rfl, rfl, fun id => get_mapValues _ _ id, fun id row stored standing used => ?_⟩
  have none := all_eq_true.mp unused (id, row) (get_eq_some.mp stored)
  simp [used, standing] at none

/-! ## Changing and revoking -/

theorem updateAccess_leaves {input : UpdateAccessInput}
    (updated : updateResourceAccess catalog tables user input now = some after) :
    ∃ actor grant row middle, lockAccessActor tables user now = some actor ∧
      tables.grants.get input.id = some grant ∧ grant.scope = input.scope ∧
      row.userId = grant.userId ∧ row.scope = grant.scope ∧
      middle.resources = tables.resources ∧ middle.presets = tables.presets ∧
      middle.deliveries = tables.deliveries ∧ middle.subjects = tables.subjects ∧
      (∀ id, middle.grants.get id =
        if id = input.id then some row else tables.grants.get id) ∧
      (input.revoke = true ∧ row.state = .revoked ∧ row.assignment = grant.assignment ∨
        input.revoke = false ∧ row.state = grant.state ∧ row.assignment = AccessTables.stored input.assignment ∧
          SoundAssignment catalog row.scope.resourceType row.assignment ∧
          (isPlatformAdmin actor = false → ∀ permission, Confers catalog tables row.scope row.assignment permission →
            Confers catalog tables grant.scope grant.assignment permission ∨
              permission ∈ effectivePermissions catalog tables actor.id row.scope)) ∧
      advanceScopeAccess middle grant.userId input.scope = some after := by
  simp only [updateResourceAccess, Option.bind_eq_bind, Option.bind_eq_some_iff, require_eq_some,
    Bool.and_eq_true, decide_eq_true_eq] at updated
  obtain ⟨_, -, actor, locked, resource, -, authority, authorized, grant, stored, _,
    ⟨⟨atScope, -⟩, -⟩, middle, changed, advanced⟩ := updated
  have gets : ∀ (base : AccessTables) (change : AccessGrantRow → AccessGrantRow) (id : String),
      base.grants = tables.grants →
      (base.updateGrant input.id change).grants.get id =
        if id = input.id then some (change grant) else tables.grants.get id := by
    intro base change id same
    rw [AccessTables.updateGrant, get_mapValues, same]
    by_cases here : id = input.id
    · subst here
      simp [stored]
    · cases tables.grants.get id <;> simp [here]
  unfold changeAccess at changed
  split at changed
  · rename_i revoked
    have made := Option.some.inj changed
    refine ⟨actor, grant, { grant with state := .revoked, revision := grant.revision + 1 }, middle,
      locked, stored, atScope, rfl, rfl, ?_, ?_, ?_, ?_, fun id => ?_,
      Or.inl ⟨revoked, rfl, rfl⟩, advanced⟩
    all_goals rw [← made]
    any_goals rfl
    exact gets _ _ id rfl
  rename_i kept
  simp only [Option.bind_eq_bind, Option.bind_eq_some_iff, require_eq_some, Option.some.injEq] at changed
  obtain ⟨previous, resolvedPrevious, proposed, resolved, _, delegated, made⟩ := changed
  refine ⟨actor, grant, { grant with
    assignment := AccessTables.stored input.assignment, revision := grant.revision + 1 }, middle,
    locked, stored, atScope, rfl, rfl, ?_, ?_, ?_, ?_, fun id => ?_,
    Or.inr ⟨by simpa using kept, rfl, rfl, ?_, ?_⟩, advanced⟩
  any_goals rw [← made]
  any_goals rfl
  · exact gets _ _ id rfl
  · exact atScope ▸ soundAssignment_of_resolves resolved
  intro member permission conferred
  rw [confers_stored, atScope] at conferred
  have offered : permission ∈ proposed := (mem_resolveAssignment resolved).mpr conferred
  have allowed := all_eq_true.mp delegated permission offered
  rw [Bool.or_eq_true, contains_iff_mem, contains_iff_mem] at allowed
  rcases allowed with before | held
  · exact Or.inl (atScope ▸ (mem_resolveAssignment resolvedPrevious).mp before)
  · exact Or.inr (atScope ▸ (mem_authority authorized member).mp held)

/-! ## Copying and deleting -/

/-- The tables have all the grants and presets they had. -/
structure Grown (tables after : AccessTables) : Prop where
  resources : after.resources = tables.resources
  grants : ∀ id row, tables.grants.get id = some row → after.grants.get id = some row
  presets : ∀ id row, tables.presets.get id = some row → after.presets.get id = some row

theorem Grown.refl (tables : AccessTables) : Grown tables tables :=
  ⟨rfl, fun _ _ stored => stored, fun _ _ stored => stored⟩

theorem Grown.trans (first : Grown tables middle) (second : Grown middle after) :
    Grown tables after :=
  ⟨second.resources.trans first.resources, fun id row stored => second.grants id row (first.grants id row stored),
    fun id row stored => second.presets id row (first.presets id row stored)⟩

theorem SameAccess.sound (same : SameAccess tables after) (sound : Sound catalog tables) :
    Sound catalog after :=
  ⟨same.grants ▸ sound.grants, same.presets ▸ sound.presets⟩

variable {toScope : ResourceScope}

theorem copyPresets_grown (copied : String × PresetRow → String)
    (toInstance : toScope.resourceType = .instance') {presets : List (String × PresetRow)}
    (accepted : ∀ entry ∈ presets, ∀ item ∈ entry.2.selections, catalog.Accepts .instance' item)
    (sound : Sound catalog tables) :
    Grown tables (presets.foldl (fun tables entry =>
        copyPreset toScope (copied entry) entry.2 tables) tables) ∧
      Sound catalog (presets.foldl (fun tables entry =>
        copyPreset toScope (copied entry) entry.2 tables) tables) := by
  induction presets generalizing tables with
  | nil => exact ⟨.refl tables, sound⟩
  | cons entry rest ih =>
    rw [forall_mem_cons] at accepted
    have one : Grown tables (copyPreset toScope (copied entry) entry.2 tables) ∧
        Sound catalog (copyPreset toScope (copied entry) entry.2 tables) := by
      unfold copyPreset
      split
      · exact ⟨.refl tables, sound⟩
      rename_i fresh
      refine ⟨⟨rfl, fun _ _ stored => stored, fun id row stored => ?_⟩, ⟨sound.grants, fun id row stored => ?_⟩⟩
      · rw [get_set, if_neg]
        · exact stored
        · rintro rfl
          simp [has, stored] at fresh
      · rw [get_set] at stored
        split at stored
        · rw [← Option.some.inj stored]
          exact toInstance ▸ accepted.1
        · exact sound.presets id row stored
    obtain ⟨grown, soundAfter⟩ := ih accepted.2 one.2
    exact ⟨one.1.trans grown, soundAfter⟩

theorem copyGrants_grown {copied : OrderedMap String String} {owner : Option String}
    {rows : List AccessGrantRow} {ids : List String}
    (sources : ∀ row ∈ rows, SoundAssignment catalog toScope.resourceType row.assignment)
    (sound : Sound catalog tables)
    (copies : copyGrants copied toScope owner rows ids tables = some after) :
    Grown tables after ∧ Sound catalog after := by
  induction rows generalizing tables ids with
  | nil =>
    obtain rfl : tables = after := by simpa [copyGrants] using copies
    exact ⟨.refl tables, sound⟩
  | cons row rest ih =>
    rw [forall_mem_cons] at sources
    rw [copyGrants.eq_def] at copies
    dsimp only at copies
    split at copies
    · exact ih sources.2 sound copies
    split at copies
    · cases copies
    rename_i id ids
    split at copies
    · cases copies
    rename_i fresh
    obtain ⟨middle, advanced, copies⟩ := Option.bind_eq_some_iff.mp copies
    have same := sameAccess_of_advances advanced
    have grownFirst : Grown tables middle := by
      refine ⟨same.resources, fun key old stored => ?_, fun key old stored => ?_⟩
      · rw [same.grants, get_set, if_neg]
        · exact stored
        · rintro rfl
          simp [has, stored] at fresh
      · rw [same.presets]
        exact stored
    have soundFirst : Sound catalog middle := by
      refine same.sound ⟨fun key old stored => ?_, sound.presets⟩
      rw [get_set] at stored
      split at stored
      · rw [← Option.some.inj stored]
        exact ⟨sources.1.selections, sources.1.builtins⟩
      · exact sound.grants key old stored
    obtain ⟨grown, soundAfter⟩ := ih sources.2 soundFirst copies
    exact ⟨grownFirst.trans grown, soundAfter⟩

/-- Copying a resource's access takes nothing away. -/
theorem copyInstance_leaves {fromScope : ResourceScope} {ids : List String} (sound : Sound catalog tables)
    (copies : copyInstanceAccess copiedPresetId tables fromScope toScope ids = some after) :
    Grown tables after ∧ Sound catalog after := by
  simp only [copyInstanceAccess, Option.bind_eq_bind, Option.bind_eq_some_iff, require_eq_some,
    Bool.and_eq_true, decide_eq_true_eq] at copies
  obtain ⟨_, ⟨fromInstance, toInstance⟩, -, -, target, -, copies⟩ := copies
  have accepted : ∀ entry ∈ tables.presets.entries.filter (·.2.scope = fromScope),
      ∀ item ∈ entry.2.selections, catalog.Accepts .instance' item := by
    intro entry listed item inside
    obtain ⟨listed, here⟩ := mem_filter.mp listed
    have stored := get_eq_some.mpr listed
    have accepted := sound.presets entry.1 entry.2 stored item inside
    rwa [of_decide_eq_true here, fromInstance] at accepted
  obtain ⟨grownPresets, soundPresets⟩ := copyPresets_grown
    (fun entry => copiedPresetId entry.1 toScope) toInstance accepted sound
  obtain ⟨grown, soundAfter⟩ := copyGrants_grown (fun row listed => by
    obtain ⟨listed, here⟩ := mem_filter.mp listed
    obtain ⟨entry, member, rfl⟩ := mem_map.mp listed
    have accepted := soundPresets.grants entry.1 entry.2 (get_eq_some.mpr member)
    rw [Bool.and_eq_true, decide_eq_true_eq] at here
    rwa [here.1, fromInstance, ← toInstance] at accepted) soundPresets copies
  exact ⟨grownPresets.trans grown, soundAfter⟩

theorem deleteResource_leaves (deleted : deleteResourceAccess tables scope now = some after) :
    ∃ middle : AccessTables, middle.resources = tables.resources ∧
      middle.grants = tables.grants.filter (fun _ row => row.scope ≠ scope) ∧
      middle.presets = tables.presets.filter (fun _ row => row.scope ≠ scope) ∧
      middle.subjects = tables.subjects ∧ middle.deliveries = tables.deliveries ∧
      advanceAll scope ((tables.grants.entries.filter (·.2.scope = scope)).map (·.2.userId)) middle = some after := by
  simp only [deleteResourceAccess, Option.bind_eq_bind, Option.bind_eq_some_iff, require_eq_some] at deleted
  obtain ⟨_, -, _, -, advanced⟩ := deleted
  refine ⟨_, ?_, ?_, ?_, ?_, ?_, advanced⟩ <;> rfl

/-! ## What is stored is sound -/

theorem acknowledge_leaves {relayId : String} (items : List Kiln.Relay.AuthorizationRevision) (tables : AccessTables) :
    (items.foldl (acknowledgeDelivery relayId) tables).grants = tables.grants ∧
      (items.foldl (acknowledgeDelivery relayId) tables).presets = tables.presets ∧
      (items.foldl (acknowledgeDelivery relayId) tables).subjects = tables.subjects := by
  induction items generalizing tables with
  | nil => exact ⟨rfl, rfl, rfl⟩
  | cons item rest ih =>
    obtain ⟨grants, presets, subjects⟩ := ih (acknowledgeDelivery relayId tables item)
    rw [foldl_cons, grants, presets, subjects]
    unfold acknowledgeDelivery
    dsimp only
    split <;> exact ⟨rfl, rfl, rfl⟩

/-- Every transaction keeps what is stored sound. -/
theorem sound_of_next {event : Nat × AccessAction} (sound : Sound catalog tables)
    (step : nextAccess catalog copiedPresetId tables event = some after) :
    Sound catalog after := by
  have kept : after.grants = tables.grants → after.presets = tables.presets →
      Sound catalog after := fun grants presets =>
    ⟨grants ▸ sound.grants, presets ▸ sound.presets⟩
  obtain ⟨now, action⟩ := event
  cases action with
  | invite user input => exact (invite_leaves sound step).2.1
  | decide user input =>
    obtain ⟨scope, -, decided⟩ := Option.bind_eq_some_iff.mp step
    obtain ⟨-, presets, -, change, gets, like⟩ := decide_leaves decided
    refine ⟨fun id row stored => ?_, presets ▸ sound.presets⟩
    rw [gets, Option.map_eq_some_iff] at stored
    obtain ⟨old, stored, rfl⟩ := stored
    obtain ⟨-, sameScope, sameAssignment, -⟩ := like id old
    rw [sameScope, sameAssignment]
    exact sound.grants id old stored
  | savePreset user input =>
    obtain ⟨preset, actor, atScope, selections, -, -, accepted, -, advanced⟩ :=
      savePreset_leaves step
    have same := sameAccess_of_advanceAll advanced
    refine same.sound ⟨sound.grants, fun id row stored => ?_⟩
    rw [get_set] at stored
    split at stored
    · rw [← Option.some.inj stored, atScope, selections]
      exact fun item chosen => accepted item (mem_dedup.mp chosen)
    · exact sound.presets id row stored
  | deletePreset user input =>
    obtain ⟨-, presets, -, -, gets, -⟩ := deletePreset_leaves step
    refine ⟨fun id row stored => ?_, fun id row stored => ?_⟩
    · rw [gets, Option.map_eq_some_iff] at stored
      obtain ⟨old, stored, rfl⟩ := stored
      have oldSound := sound.grants id old stored
      split
      · exact ⟨oldSound.selections, oldSound.builtins⟩
      · exact oldSound
    · rw [presets, get_delete] at stored
      split at stored
      · cases stored
      · exact sound.presets id row stored
  | updateAccess user input =>
    obtain ⟨actor, grant, row, middle, -, stored, -, -, sameScope, -, presets, -, -, gets, left,
      advanced⟩ := updateAccess_leaves step
    refine (sameAccess_of_advances advanced).sound ⟨fun id other found => ?_, presets ▸ sound.presets⟩
    rw [gets] at found
    split at found
    · rw [← Option.some.inj found]
      rcases left with ⟨-, -, sameAssignment⟩ | ⟨-, -, -, rowSound, -⟩
      · rw [sameScope, sameAssignment]
        exact sound.grants _ grant stored
      · exact rowSound
    · exact sound.grants id other found
  | copyInstance fromScope toScope ids => exact (copyInstance_leaves sound step).2
  | deleteResource scope =>
    obtain ⟨middle, -, grants, presets, -, -, advanced⟩ := deleteResource_leaves step
    refine (sameAccess_of_advanceAll advanced).sound ⟨fun id row stored => ?_, fun id row stored => ?_⟩
    · rw [grants, get_filter, Option.filter_eq_some_iff] at stored
      exact sound.grants id row stored.1
    · rw [presets, get_filter, Option.filter_eq_some_iff] at stored
      exact sound.presets id row stored.1
  | account id row => exact kept (by rw [← Option.some.inj step]) (by rw [← Option.some.inj step])
  | resource scope row =>
    exact kept (by rw [← Option.some.inj step]) (by rw [← Option.some.inj step])
  | advance userId targets => exact (sameAccess_of_advances step).sound sound
  | acknowledge relayId items =>
    obtain ⟨grants, presets, -⟩ := @acknowledge_leaves relayId items tables
    exact kept (by rw [← Option.some.inj step]; exact grants) (by rw [← Option.some.inj step]; exact presets)

theorem sound_of_unshared (start : tables.Unshared) : Sound catalog tables := by
  obtain ⟨grants, presets, -⟩ := start
  constructor
  · simp [grants]
  · simp [presets]

/-- What is stored expands in every reachable state. -/
theorem sound_of_reachable (reachable : (accessSystem catalog copiedPresetId).Reachable tables) :
    Sound catalog tables :=
  reachable.invariant (fun _ start => sound_of_unshared start)
    (fun s e s' sound step => @sound_of_next catalog copiedPresetId s s' e sound step)

end Kiln.Hearth
