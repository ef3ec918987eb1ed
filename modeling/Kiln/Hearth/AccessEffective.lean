import Kiln.Hearth.AccessOperations

/-!
# What people's grants come to

Someone's effective permissions at a scope are what their active grants there and on its Relay
confer, and what they own: the selections of an assignment, of its presets and of what is built
in each give their permissions apart. What is stored always expands.
-/

namespace Kiln.Hearth
open Kiln.Lib Kiln.Contracts List

variable {catalog : PermissionCatalog} {tables after : AccessTables} {scope : ResourceScope}
  {assignment : AccessAssignment} {permission : String}

/-- Someone's effective permissions at a scope: `effectiveScopePermissions` over the grants that
`loadResourceGrantsEffect` builds, and none where it throws. -/
def effectivePermissions (catalog : PermissionCatalog) (tables : AccessTables) (userId : String)
    (scope : ResourceScope) : List String :=
  ((loadResourceGrants catalog tables userId scope.relayId (some scope)).map
    (effectiveScopePermissions · scope)).getD []

/-! ## Assignments -/

/-- An assignment at a scope comes to a selection: its own, one of a preset of that scope, or one
    of what is built in. -/
def Assigns (catalog : PermissionCatalog) (tables : AccessTables) (scope : ResourceScope)
    (assignment : AccessAssignment) (item : PermissionSelection) : Prop :=
  item ∈ assignment.selections ∨ (∃ id ∈ assignment.presetIds, item ∈ presetSelections tables scope id) ∨
    ∃ key ∈ assignment.builtinKeys, ∃ builtin,
      catalog.builtinPresetSelections key scope.resourceType = some builtin ∧ item ∈ builtin

/-- An assignment at a scope confers a permission: one of its selections gives it there. -/
def Confers (catalog : PermissionCatalog) (tables : AccessTables) (scope : ResourceScope)
    (assignment : AccessAssignment) (permission : String) : Prop :=
  ∃ item, Assigns catalog tables scope assignment item ∧
    catalog.Gives scope.resourceType (scopeCapabilities tables scope) item permission

theorem mem_assignedSelections {selections : List PermissionSelection}
    (assigned : assignedSelections catalog tables scope assignment = some selections)
    {item : PermissionSelection} :
    item ∈ selections ↔ Assigns catalog tables scope assignment item := by
  rw [assignedSelections, Option.map_eq_some_iff] at assigned
  obtain ⟨builtins, run, rfl⟩ := assigned
  rw [mem_append, mem_append, mem_flatMap, mem_flatten, or_assoc, Assigns]
  refine or_congr Iff.rfl (or_congr Iff.rfl ?_)
  constructor
  · rintro ⟨builtin, member, inside⟩
    obtain ⟨key, chosen, found⟩ := (mem_of_mapM run).mp member
    exact ⟨key, chosen, builtin, found, inside⟩
  · rintro ⟨key, chosen, builtin, found, inside⟩
    exact ⟨builtin, (mem_of_mapM run).mpr ⟨key, chosen, found⟩, inside⟩

theorem confers_congr
    (presets : ∀ id ∈ assignment.presetIds, presetSelections after scope id = presetSelections tables scope id)
    (resources : after.resources = tables.resources) :
    Confers catalog after scope assignment permission ↔ Confers catalog tables scope assignment permission := by
  have capabilities : scopeCapabilities after scope = scopeCapabilities tables scope := by
    rw [scopeCapabilities, scopeCapabilities, resources]
  rw [Confers, Confers, capabilities]
  refine exists_congr fun item => and_congr_left fun _ => or_congr Iff.rfl (or_congr ?_ Iff.rfl)
  constructor
  · rintro ⟨id, chosen, inside⟩
    exact ⟨id, chosen, presets id chosen ▸ inside⟩
  · rintro ⟨id, chosen, inside⟩
    exact ⟨id, chosen, (presets id chosen).symm ▸ inside⟩

theorem confers_stored : Confers catalog tables scope (AccessTables.stored assignment) permission ↔
      Confers catalog tables scope assignment permission := by
  simp only [Confers, Assigns, AccessTables.stored, mem_dedup]

/-- `resolveAssignment` gives what an assignment confers, and refuses a preset that isn't there. -/
theorem mem_resolveAssignment {stored : Bool} {permissions : List String}
    (resolved : resolveAssignment catalog tables scope assignment stored = some permissions) :
    permission ∈ permissions ↔ Confers catalog tables scope assignment permission := by
  simp only [resolveAssignment, Option.bind_eq_bind, Option.bind_eq_some_iff] at resolved
  obtain ⟨capabilities, capable, builtins, builtIn, presets, preset, resolved⟩ := resolved
  have same : capabilities = scopeCapabilities tables scope := by
    unfold requireScopeCapabilities at capable
    unfold scopeCapabilities
    by_cases isDatabase : scope.resourceType = .database
    · rw [if_pos isDatabase] at capable ⊢
      obtain ⟨row, found, rfl⟩ := Option.map_eq_some_iff.mp capable
      simp [found]
    · rw [if_neg isDatabase] at capable ⊢
      simpa using capable.symm
  have comes : ∀ item, (item ∈ assignment.selections ++ builtins.flatten ++ presets.flatten) ↔
      Assigns catalog tables scope assignment item := by
    intro item
    rw [mem_append, mem_append, or_assoc, or_comm (a := item ∈ builtins.flatten), Assigns]
    refine or_congr Iff.rfl (or_congr ?_ ?_)
    · rw [mem_flatten]
      constructor
      · rintro ⟨selections, member, inside⟩
        obtain ⟨id, chosen, found⟩ := (mem_of_mapM preset).mp member
        obtain ⟨row, stored, found⟩ := Option.bind_eq_some_iff.mp found
        rw [Option.ite_none_right_eq_some] at found
        obtain ⟨here, found⟩ := found
        refine ⟨id, mem_dedup.mp chosen, ?_⟩
        rw [presetSelections, stored]
        simpa [here, Option.some.inj found] using inside
      rintro ⟨id, chosen, inside⟩
      unfold presetSelections at inside
      cases found : tables.presets.get id with
      | none => simp [found] at inside
      | some row =>
        simp only [found] at inside
        split at inside
        · exact ⟨row.selections, (mem_of_mapM preset).mpr ⟨id, mem_dedup.mpr chosen, by simp [*]⟩, inside⟩
        · simp at inside
    · rw [mem_flatten]
      constructor
      · rintro ⟨builtin, member, inside⟩
        obtain ⟨key, chosen, found⟩ := (mem_of_mapM builtIn).mp member
        exact ⟨key, mem_dedup.mp chosen, builtin, found, inside⟩
      · rintro ⟨key, chosen, builtin, found, inside⟩
        exact ⟨builtin, (mem_of_mapM builtIn).mpr ⟨key, mem_dedup.mpr chosen, found⟩, inside⟩
  subst same
  cases stored with
  | true =>
    rw [if_pos rfl] at resolved
    simp only [mem_expandStoredSelections resolved, comes, Confers]
  | false =>
    rw [if_neg (by simp)] at resolved
    simp only [mem_expandPermissionSelections resolved, mem_dedup, comes, Confers]

/-! ## What is stored expands -/

/-- Each selection of an assignment expands at its scope. -/
structure SoundAssignment (catalog : PermissionCatalog) (scopeType : PermissionScopeType)
    (assignment : AccessAssignment) : Prop where
  selections : ∀ item ∈ assignment.selections, catalog.Accepts scopeType item
  builtins : ∀ key ∈ assignment.builtinKeys, ∃ builtin, catalog.builtinPresetSelections key scopeType = some builtin ∧
      ∀ item ∈ builtin, catalog.Accepts scopeType item

/-- All that is stored expands. -/
structure Sound (catalog : PermissionCatalog) (tables : AccessTables) : Prop where
  grants : ∀ id row, tables.grants.get id = some row → SoundAssignment catalog row.scope.resourceType row.assignment
  presets : ∀ id row, tables.presets.get id = some row →
    ∀ item ∈ row.selections, catalog.Accepts row.scope.resourceType item

theorem soundAssignment_of_resolves {permissions : List String}
    (resolved : resolveAssignment catalog tables scope assignment false = some permissions) :
    SoundAssignment catalog scope.resourceType (AccessTables.stored assignment) := by
  simp only [resolveAssignment, Option.bind_eq_bind, Option.bind_eq_some_iff] at resolved
  obtain ⟨capabilities, -, builtins, builtIn, presets, -, resolved⟩ := resolved
  rw [if_neg (by simp)] at resolved
  have accepted := accepts_of_expands resolved
  constructor
  · intro item member
    refine accepted item (mem_dedup.mpr ?_)
    simpa using Or.inl (mem_dedup.mp member)
  intro key chosen
  have defined := mapM_isSome.mp (Option.isSome_iff_exists.mpr ⟨builtins, builtIn⟩) key chosen
  obtain ⟨builtin, found⟩ := Option.isSome_iff_exists.mp defined
  refine ⟨builtin, found, fun item inside => accepted item (mem_dedup.mpr ?_)⟩
  have member := (mem_of_mapM builtIn).mpr ⟨key, chosen, found⟩
  simp only [mem_append, mem_flatten]
  exact Or.inl (Or.inr ⟨builtin, member, inside⟩)

variable {row : AccessGrantRow}

theorem resolveGrant_isSome (sound : Sound catalog tables) {id : String} (stored : tables.grants.get id = some row) :
    (resolveGrant catalog tables row).isSome = true := by
  have rowSound := sound.grants id row stored
  have builtIn : (row.assignment.builtinKeys.mapM
      (catalog.builtinPresetSelections · row.scope.resourceType)).isSome = true := by
    refine mapM_isSome.mpr fun key chosen => ?_
    obtain ⟨builtin, found, -⟩ := rowSound.builtins key chosen
    simp [found]
  obtain ⟨builtins, builtIn⟩ := Option.isSome_iff_exists.mp builtIn
  have assigned : assignedSelections catalog tables row.scope row.assignment = some (row.assignment.selections ++
        row.assignment.presetIds.flatMap (presetSelections tables row.scope) ++
        builtins.flatten) := by
    rw [assignedSelections, builtIn, Option.map_some]
  rw [resolveGrant, assigned, Option.bind_some, Option.isSome_map, expandResourceGrantPermissions]
  refine expandStoredSelections_isSome fun item member => ?_
  rw [mem_assignedSelections assigned] at member
  rcases member with own | ⟨presetId, chosen, inside⟩ | ⟨key, chosen, builtin, found, inside⟩
  · exact rowSound.selections item own
  · unfold presetSelections at inside
    cases found : tables.presets.get presetId with
    | none => simp [found] at inside
    | some preset =>
      simp only [found] at inside
      split at inside
      · rename_i here
        exact here ▸ sound.presets presetId preset found item inside
      · simp at inside
  · obtain ⟨builtin', found', accepted⟩ := rowSound.builtins key chosen
    cases found.symm.trans found'
    exact accepted item inside

theorem resolveGrant_eq_some {grant : ResolvedAccessGrant} (resolved : resolveGrant catalog tables row = some grant) :
    grant.scope = row.scope ∧ ∀ permission, permission ∈ grant.permissions ↔
      Confers catalog tables row.scope row.assignment permission := by
  rw [resolveGrant, Option.bind_eq_some_iff] at resolved
  obtain ⟨selections, assigned, resolved⟩ := resolved
  obtain ⟨permissions, expands, rfl⟩ := Option.map_eq_some_iff.mp resolved
  refine ⟨rfl, fun permission => ?_⟩
  rw [expandResourceGrantPermissions] at expands
  simp only [mem_expandStoredSelections expands, mem_assignedSelections assigned, Confers]

/-! ## Effective permissions -/

/-- An active grant of someone's that counts at a scope confers a permission. -/
def Granted (catalog : PermissionCatalog) (tables : AccessTables) (userId : String)
    (scope : ResourceScope) (permission : String) : Prop :=
  ∃ id row, tables.grants.get id = some row ∧ row.userId = userId ∧ row.state = .active ∧
    covers row.scope scope = true ∧ Confers catalog tables row.scope row.assignment permission

/-- What someone owns gives a permission at a scope. -/
def Owned (catalog : PermissionCatalog) (tables : AccessTables) (userId : String)
    (scope : ResourceScope) (permission : String) : Prop :=
  ∃ owned row grant, tables.resources.get owned = some row ∧ row.ownerId = some userId ∧
    covers owned scope = true ∧ resolveOwned catalog tables owned = some grant ∧
    permission ∈ grant.permissions

theorem resolveOwned_isSome (catalog : PermissionCatalog) (tables : AccessTables)
    (owned : ResourceScope) : (resolveOwned catalog tables owned).isSome = true := by
  rw [resolveOwned, Option.isSome_map, expandResourceGrantPermissions]
  refine expandStoredSelections_isSome fun item chosen => ?_
  unfold ownerSelections at chosen
  split at chosen
  · intro grouped
    simp only [appOwnerSelections, mem_cons, not_mem_nil, or_false] at chosen
    rcases chosen with rfl | rfl | rfl <;> cases grouped
  · obtain rfl := mem_singleton.mp chosen
    exact accepts_all

variable {granted : ResourceScope}

theorem covers_iff : covers granted scope = true ↔ granted.relayId = scope.relayId ∧ (granted.resourceType = .relay ∨
      granted.resourceType = scope.resourceType ∧ granted.resourceId = scope.resourceId) := by
  rw [covers, Bool.and_eq_true, decide_eq_true_eq, Bool.or_eq_true, decide_eq_true_eq,
    Bool.and_eq_true, decide_eq_true_eq, decide_eq_true_eq]

theorem covers_trans {middle : ResourceScope} (first : covers granted middle = true)
    (second : covers middle scope = true) : covers granted scope = true := by
  rw [covers_iff] at *
  refine ⟨first.1.trans second.1, ?_⟩
  rcases first.2 with atRelay | ⟨sameType, sameId⟩
  · exact Or.inl atRelay
  · rcases second.2 with atRelay | ⟨type, id⟩
    · exact Or.inl (sameType.trans atRelay)
    · exact Or.inr ⟨sameType.trans type, sameId.trans id⟩

variable {userId : String}

theorem loadsGrant_of_covers (owner : row.userId = userId) (active : row.state = .active)
    (counts : covers row.scope scope = true) :
    loadsGrant userId scope.relayId (some scope) row = true := by
  obtain ⟨onRelay, atRelay | ⟨sameType, sameId⟩⟩ := covers_iff.mp counts
  · simp [loadsGrant, owner, active, onRelay, atRelay]
  · by_cases relay : scope.resourceType = .relay
    · simp [loadsGrant, owner, active, onRelay, sameType, relay]
    · simp [loadsGrant, owner, active, onRelay, sameType, sameId, relay]

theorem loadsOwned_of_covers {owned : ResourceScope} {row : ResourceRow}
    (owner : row.ownerId = some userId) (counts : covers owned scope = true) :
    loadsOwned userId scope.relayId (some scope) owned row = true := by
  obtain ⟨onRelay, atRelay | ⟨sameType, sameId⟩⟩ := covers_iff.mp counts
  · simp [loadsOwned, owner, onRelay, atRelay]
  · simp [loadsOwned, owner, onRelay, sameType, sameId]

variable {among : Option ResourceScope} {relayId : String}

theorem loadsGrant_iff (loads : loadsGrant userId relayId among row = true) :
    row.userId = userId ∧ row.state = .active := by
  simp only [loadsGrant, Bool.and_eq_true, decide_eq_true_eq] at loads
  exact ⟨loads.1.1.1, loads.1.1.2⟩

variable {grants : List ResolvedAccessGrant}

/-- `loadResourceGrantsEffect`, given what its filters let through. -/
def loadGrants (catalog : PermissionCatalog) (tables : AccessTables) (loads : AccessGrantRow → Bool)
    (owns : ResourceScope → ResourceRow → Bool) : Option (List ResolvedAccessGrant) := do
  let rows := (tables.grants.entries.map (·.2)).filter loads
  let granted ← rows.mapM (resolveGrant catalog tables)
  let owned := tables.resources.entries.filter fun entry => owns entry.1 entry.2
  let ownedGrants ← owned.mapM fun entry => resolveOwned catalog tables entry.1
  some (granted ++ ownedGrants)

variable {loads : AccessGrantRow → Bool} {owns : ResourceScope → ResourceRow → Bool}

theorem loadGrants_eq_some (loaded : loadGrants catalog tables loads owns = some grants) {grant : ResolvedAccessGrant} :
    grant ∈ grants ↔ (∃ id row, tables.grants.get id = some row ∧ loads row = true ∧
        resolveGrant catalog tables row = some grant) ∨
      ∃ owned row, tables.resources.get owned = some row ∧ owns owned row = true ∧
        resolveOwned catalog tables owned = some grant := by
  simp only [loadGrants, Option.bind_eq_bind, Option.bind_eq_some_iff, Option.some.injEq] at loaded
  obtain ⟨granted, grantRun, owned, ownedRun, rfl⟩ := loaded
  rw [mem_append, mem_of_mapM grantRun, mem_of_mapM ownedRun]
  refine or_congr ?_ ?_
  · constructor
    · rintro ⟨row, listed, resolved⟩
      obtain ⟨listed, loads⟩ := mem_filter.mp listed
      obtain ⟨⟨id, row'⟩, entry, rfl⟩ := mem_map.mp listed
      exact ⟨id, row', OrderedMap.get_eq_some.mpr entry, loads, resolved⟩
    · rintro ⟨id, row, stored, loads, resolved⟩
      exact ⟨row, mem_filter.mpr ⟨mem_map.mpr ⟨(id, row), OrderedMap.get_eq_some.mp stored, rfl⟩, loads⟩, resolved⟩
  · constructor
    · rintro ⟨⟨owned', row⟩, listed, resolved⟩
      obtain ⟨entry, loads⟩ := mem_filter.mp listed
      exact ⟨owned', row, OrderedMap.get_eq_some.mpr entry, loads, resolved⟩
    · rintro ⟨owned', row, stored, loads, resolved⟩
      exact ⟨(owned', row), mem_filter.mpr ⟨OrderedMap.get_eq_some.mp stored, loads⟩, resolved⟩

theorem ownerId_of_loadsOwned {owned : ResourceScope} {row : ResourceRow}
    (loads : loadsOwned userId relayId among owned row = true) : row.ownerId = some userId := by
  simp only [loadsOwned, Bool.and_eq_true, decide_eq_true_eq] at loads
  exact loads.1.1

theorem loadGrants_isSome (sound : Sound catalog tables) : (loadGrants catalog tables loads owns).isSome = true := by
  have granted : (((tables.grants.entries.map (·.2)).filter loads).mapM (resolveGrant catalog tables)).isSome = true := by
    refine mapM_isSome.mpr fun row listed => ?_
    obtain ⟨⟨id, row'⟩, entry, rfl⟩ := mem_map.mp (mem_filter.mp listed).1
    exact resolveGrant_isSome sound (OrderedMap.get_eq_some.mpr entry)
  have owned : ((tables.resources.entries.filter fun entry => owns entry.1 entry.2).mapM fun entry =>
      resolveOwned catalog tables entry.1).isSome = true :=
    mapM_isSome.mpr fun entry _ => resolveOwned_isSome catalog tables entry.1
  obtain ⟨grants, grantRun⟩ := Option.isSome_iff_exists.mp granted
  obtain ⟨own, ownedRun⟩ := Option.isSome_iff_exists.mp owned
  simp [loadGrants, grantRun, ownedRun]

theorem mem_effectiveScopePermissions (sound : Sound catalog tables)
    (loaded : loadGrants catalog tables loads owns = some grants)
    (theirs : ∀ row, loads row = true → row.userId = userId ∧ row.state = .active)
    (own : ∀ owned row, owns owned row = true → row.ownerId = some userId)
    (loadsAll : ∀ row : AccessGrantRow, row.userId = userId → row.state = .active →
      covers row.scope scope = true → loads row = true)
    (loadsOwn : ∀ owned row, row.ownerId = some userId → covers owned scope = true → owns owned row = true) :
    permission ∈ effectiveScopePermissions grants scope ↔ Granted catalog tables userId scope permission ∨
        Owned catalog tables userId scope permission := by
  rw [effectiveScopePermissions, mem_flatMap]
  constructor
  · rintro ⟨grant, member, given⟩
    split at given
    · rename_i counts
      rcases (loadGrants_eq_some loaded).mp member with
        ⟨id, row, stored, loads, resolved⟩ | ⟨owned, row, stored, loads, resolved⟩
      · obtain ⟨sameScope, confers⟩ := resolveGrant_eq_some resolved
        obtain ⟨holder, active⟩ := theirs row loads
        exact Or.inl ⟨id, row, stored, holder, active, sameScope ▸ counts, (confers permission).mp given⟩
      · have sameScope : grant.scope = owned := by
          obtain ⟨_, -, rfl⟩ := Option.map_eq_some_iff.mp resolved
          rfl
        exact Or.inr ⟨owned, row, grant, stored, own owned row loads, sameScope ▸ counts, resolved, given⟩
    · cases given
  · rintro (⟨id, row, stored, holder, active, counts, confers⟩ |
      ⟨owned, row, grant, stored, owner, counts, resolved, given⟩)
    · obtain ⟨grant, resolved⟩ := Option.isSome_iff_exists.mp (resolveGrant_isSome sound stored)
      obtain ⟨sameScope, gives⟩ := resolveGrant_eq_some resolved
      refine ⟨grant, (loadGrants_eq_some loaded).mpr (Or.inl ⟨id, row, stored,
        loadsAll row holder active counts, resolved⟩), ?_⟩
      rw [sameScope, if_pos counts]
      exact (gives permission).mpr confers
    · have sameScope : grant.scope = owned := by
        obtain ⟨_, -, rfl⟩ := Option.map_eq_some_iff.mp resolved
        rfl
      refine ⟨grant, (loadGrants_eq_some loaded).mpr
        (Or.inr ⟨owned, row, stored, loadsOwn owned row owner counts, resolved⟩), ?_⟩
      rwa [sameScope, if_pos counts]

theorem mem_effectivePermissions (sound : Sound catalog tables) :
    permission ∈ effectivePermissions catalog tables userId scope ↔ Granted catalog tables userId scope permission ∨
        Owned catalog tables userId scope permission := by
  obtain ⟨grants, loaded⟩ : ∃ grants, loadResourceGrants catalog tables userId scope.relayId (some scope) = some grants :=
    Option.isSome_iff_exists.mp (loadGrants_isSome sound)
  rw [effectivePermissions, loaded]
  exact mem_effectiveScopePermissions sound loaded (fun _ => loadsGrant_iff) (fun _ _ => ownerId_of_loadsOwned)
    (fun _ => loadsGrant_of_covers)
    fun _ _ => loadsOwned_of_covers

theorem mem_effectivePermissions_of_loaded (sound : Sound catalog tables)
    (loaded : loadResourceGrants catalog tables userId scope.relayId none = some grants) :
    permission ∈ effectiveScopePermissions grants scope ↔
      permission ∈ effectivePermissions catalog tables userId scope := by
  rw [mem_effectivePermissions sound]
  refine mem_effectiveScopePermissions sound loaded (fun _ => loadsGrant_iff) (fun _ _ => ownerId_of_loadsOwned)
    (fun row holder active counts => ?_) fun owned row owner counts => ?_
  · simp [loadsGrant, holder, active, (covers_iff.mp counts).1]
  · simp [loadsOwned, owner, (covers_iff.mp counts).1]

theorem effectivePermissions_covered (sound : Sound catalog tables) (counts : covers granted scope = true)
    (held : permission ∈ effectivePermissions catalog tables userId granted) :
    permission ∈ effectivePermissions catalog tables userId scope := by
  rw [mem_effectivePermissions sound] at held ⊢
  rcases held with ⟨id, row, stored, holder, active, within, confers⟩ |
    ⟨owned, row, grant, stored, owner, within, resolved, given⟩
  · exact Or.inl ⟨id, row, stored, holder, active, covers_trans within counts, confers⟩
  · exact Or.inr ⟨owned, row, grant, stored, owner, covers_trans within counts, resolved, given⟩

theorem owned_congr (resources : after.resources = tables.resources) :
    Owned catalog after userId scope permission ↔ Owned catalog tables userId scope permission := by
  have same : resolveOwned catalog after = resolveOwned catalog tables := by
    funext owned
    rw [resolveOwned, resolveOwned, expandResourceGrantPermissions, expandResourceGrantPermissions,
      scopeCapabilities, scopeCapabilities, resources]
  simp only [Owned, same, resources]

theorem granted_of_enters (sound : Sound catalog tables) (soundAfter : Sound catalog after)
    (resources : after.resources = tables.resources)
    (enters : permission ∈ effectivePermissions catalog after userId scope)
    (absent : permission ∉ effectivePermissions catalog tables userId scope) :
    Granted catalog after userId scope permission ∧ ¬ Granted catalog tables userId scope permission := by
  rw [mem_effectivePermissions sound] at absent
  rw [mem_effectivePermissions soundAfter, owned_congr resources] at enters
  tauto

end Kiln.Hearth
