import Kiln.Hearth.AccessDelegation
import Kiln.Relay.BrowserFloors

/-!
# Every loss of access is told

Whoever loses a permission by a change of access has their revision advanced in the same
transaction, for delivery to the Relay with a scope that raises the floor of each capability they
could hold on what they lost it on (`advanceScopeAccessEffect`, and `deliverBatch` in
`authorization-delivery.ts:394-480`, which sends what a delivery wants).
-/

namespace Kiln.Hearth
open Kiln.Lib Kiln.Contracts OrderedMap AccessTables List
open Kiln.Relay (AuthorizationScope AuthorizationRevision RelayBrowserCapabilityV2 BrowserTables
  BrowserPurpose BrowserRelay authorityFromCapability maxSafeInteger)

variable {catalog : PermissionCatalog} {copiedPresetId : String → ResourceScope → String}
  {tables after : AccessTables} {scope : ResourceScope} {permission : String} {now : Nat}

/-! ## Deliveries -/

/-- No delivery wants more than its subject's revision, or was acknowledged for more than it wants. -/
def Delivering (tables : AccessTables) : Prop :=
  ∀ id row, tables.deliveries.get id = some row → row.acknowledgedRevision ≤ row.desiredRevision ∧
      row.desiredRevision ≤ tables.revision id.subjectId

/-- Someone's revision is to be delivered to a Relay, for a scope there. -/
def Told (tables : AccessTables) (userId : String) (scope : ResourceScope) : Prop :=
  ∃ row, tables.deliveries.get ⟨scope.relayId, userId, deliveryScope scope⟩ = some row ∧
    row.desiredRevision = tables.revision userId ∧ row.acknowledgedRevision < row.desiredRevision

theorem revision_set (tables : AccessTables) (userId other : String) (revision : Nat) :
    ({ tables with subjects := tables.subjects.set userId revision } : AccessTables).revision
        other = if userId = other then revision else tables.revision other := by
  rw [AccessTables.revision, get_set]
  split <;> rfl

variable {userId : String}

/-- The deliveries of a subject, once several were made of a revision above what they wanted. -/
theorem deliver_foldl_gets {revision : Nat}
    (targets : List (String × AuthorizationScope)) {tables : AccessTables} {id : DeliveryId}
    {row : DeliveryRow}
    (found : (targets.foldl (fun tables target =>
      tables.deliver ⟨target.1, userId, target.2⟩ revision) tables).deliveries.get id = some row) :
    tables.deliveries.get id = some row ∨ id.subjectId = userId ∧
        (row.desiredRevision = revision ∧ row.acknowledgedRevision = 0 ∨ ∃ old, tables.deliveries.get id = some old ∧
            row.desiredRevision = max old.desiredRevision revision ∧
            row.acknowledgedRevision = old.acknowledgedRevision) := by
  induction targets generalizing tables with
  | nil => exact .inl found
  | cons target rest ih =>
    have first : ∀ made, (tables.deliver ⟨target.1, userId, target.2⟩ revision).deliveries.get id =
        some made → tables.deliveries.get id = some made ∨ id.subjectId = userId ∧
            (made.desiredRevision = revision ∧ made.acknowledgedRevision = 0 ∨
              ∃ old, tables.deliveries.get id = some old ∧ made.desiredRevision = max old.desiredRevision revision ∧
                made.acknowledgedRevision = old.acknowledgedRevision) := by
      intro made stored
      rw [deliver, get_set] at stored
      split at stored
      · rename_i here
        subst here
        cases known : tables.deliveries.get ⟨target.1, userId, target.2⟩ with
        | none =>
          rw [known] at stored
          cases stored
          exact .inr ⟨rfl, .inl ⟨rfl, rfl⟩⟩
        | some old =>
          rw [known] at stored
          cases stored
          exact .inr ⟨rfl, .inr ⟨old, rfl, rfl, rfl⟩⟩
      · exact .inl stored
    rcases ih found with earlier | ⟨subject, ⟨desired, acknowledged⟩ |
      ⟨middle, earlier, desired, acknowledged⟩⟩
    · exact first row earlier
    · exact .inr ⟨subject, .inl ⟨desired, acknowledged⟩⟩
    rcases first middle earlier with stood | ⟨-, ⟨wanted, none⟩ | ⟨old, stood, wanted, same⟩⟩
    · exact .inr ⟨subject, .inr ⟨middle, stood, desired, acknowledged⟩⟩
    · refine Or.inr ⟨subject, .inl ⟨?_, acknowledged.trans none⟩⟩
      omega
    · refine Or.inr ⟨subject, .inr ⟨old, stood, ?_, acknowledged.trans same⟩⟩
      omega

theorem delivering_of_advances {targets : List (String × AuthorizationScope)} (delivering : Delivering tables)
    (advanced : tables.advanceAuthorizationRevision userId targets = some after) :
    Delivering after ∧ after.revision userId = tables.revision userId + 1 ∧
      ∀ other, other ≠ userId → after.revision other = tables.revision other := by
  rw [advanceAuthorizationRevision, Option.ite_none_right_eq_some] at advanced
  obtain ⟨-, advanced⟩ := advanced
  have made := Option.some.inj advanced
  have subjects : after.subjects = tables.subjects.set userId (tables.revision userId + 1) := by
    rw [← made, (deliver_foldl userId _ _ _).2]
  have revision : ∀ other, after.revision other =
      if userId = other then tables.revision userId + 1 else tables.revision other := by
    intro other
    rw [← revision_set tables userId other, AccessTables.revision, AccessTables.revision, subjects]
  refine ⟨fun id row found => ?_, by rw [revision, if_pos rfl], fun other apart => by
    rw [revision, if_neg apart.symm]⟩
  rw [← made] at found
  rw [revision]
  rcases deliver_foldl_gets targets.dedup found with
    stood | ⟨rfl, ⟨desired, acknowledged⟩ | ⟨old, stood, desired, acknowledged⟩⟩
  · have bound := delivering id row stood
    split
    · rename_i here
      subst here
      omega
    · exact bound
  · rw [if_pos rfl]
    omega
  · have bound := delivering id old stood
    rw [if_pos rfl]
    omega

/-- Advancing a person's revision for a change at a scope tells of it. -/
theorem told_of_advances (delivering : Delivering tables)
    (advanced : advanceScopeAccess tables userId scope = some after) : Told after userId scope := by
  obtain ⟨-, revision, -⟩ := delivering_of_advances delivering advanced
  rw [advanceScopeAccess, advanceAuthorizationRevision, Option.ite_none_right_eq_some] at advanced
  obtain ⟨-, advanced⟩ := advanced
  have made := Option.some.inj advanced
  have found : ∃ row, after.deliveries.get ⟨scope.relayId, userId, deliveryScope scope⟩ =
      some row ∧ row.desiredRevision = tables.revision userId + 1 ∧ row.acknowledgedRevision < row.desiredRevision := by
    rw [← made]
    simp only [dedup_cons_of_notMem not_mem_nil, dedup_nil, foldl_cons,
      foldl_nil, deliver, get_set, if_true, Option.some.injEq,
      exists_eq_left']
    cases known : tables.deliveries.get ⟨scope.relayId, userId, deliveryScope scope⟩ with
    | none => exact ⟨rfl, Nat.succ_pos _⟩
    | some old =>
      have bound := delivering _ old known
      dsimp only at bound ⊢
      omega
  obtain ⟨row, stored, desired, acknowledged⟩ := found
  exact ⟨row, stored, desired.trans revision.symm, acknowledged⟩

theorem told_of_apart {other : String} (told : Told tables userId scope) (apart : userId ≠ other)
    {elsewhere : ResourceScope} (delivering : Delivering tables)
    (advanced : advanceScopeAccess tables other elsewhere = some after) :
    Told after userId scope := by
  obtain ⟨-, -, others⟩ := delivering_of_advances delivering advanced
  obtain ⟨row, stored, desired, acknowledged⟩ := told
  rw [advanceScopeAccess, advanceAuthorizationRevision, Option.ite_none_right_eq_some] at advanced
  obtain ⟨-, advanced⟩ := advanced
  have made := Option.some.inj advanced
  refine ⟨row, ?_, desired.trans (others userId apart).symm, acknowledged⟩
  rw [← made]
  simp only [dedup_cons_of_notMem not_mem_nil, dedup_nil, foldl_cons, foldl_nil, deliver, get_set]
  rw [if_neg]
  · exact stored
  · intro same
    exact apart (DeliveryId.mk.inj same).2.1.symm

theorem told_of_advanceAll {users : List String} (delivering : Delivering tables)
    (advanced : advanceAll scope users tables = some after) :
    Delivering after ∧ (∀ userId, tables.revision userId ≤ after.revision userId) ∧
      (∀ userId, Told tables userId scope → Told after userId scope) ∧
      ∀ userId ∈ users, tables.revision userId < after.revision userId ∧ Told after userId scope := by
  induction users generalizing tables with
  | nil =>
    obtain rfl : tables = after := by simpa [advanceAll] using advanced
    exact ⟨delivering, fun _ => Nat.le_refl _, fun _ told => told, by simp⟩
  | cons first rest ih =>
    rw [advanceAll, Option.bind_eq_some_iff] at advanced
    obtain ⟨middle, one, advanced⟩ := advanced
    obtain ⟨deliveringFirst, raised, others⟩ := delivering_of_advances delivering one
    obtain ⟨deliveringAfter, grows, keeps, told⟩ := ih deliveringFirst advanced
    have rises : ∀ userId, tables.revision userId ≤ middle.revision userId := by
      intro userId
      by_cases here : userId = first
      · subst here
        omega
      · exact Nat.le_of_eq (others userId here).symm
    refine ⟨deliveringAfter, fun userId => Nat.le_trans (rises userId) (grows userId),
      fun userId was => keeps userId ?_, fun userId member => ?_⟩
    · by_cases here : userId = first
      · exact here ▸ told_of_advances delivering one
      · exact told_of_apart was here delivering one
    rcases mem_cons.mp member with rfl | later
    · have grown := grows userId
      exact ⟨by omega, keeps userId (told_of_advances delivering one)⟩
    · obtain ⟨risen, toldAfter⟩ := told userId later
      have grown := rises userId
      exact ⟨by omega, toldAfter⟩

/-! ## What deliveries want in every state -/

theorem Delivering.congr (delivering : Delivering tables) (subjects : after.subjects = tables.subjects)
    (deliveries : after.deliveries = tables.deliveries) : Delivering after := by
  intro id row found
  rw [deliveries] at found
  rw [AccessTables.revision, subjects]
  exact delivering id row found

theorem copyGrants_delivering {copied : OrderedMap String String} {toScope : ResourceScope}
    {owner : Option String} {rows : List AccessGrantRow} {ids : List String}
    (delivering : Delivering tables)
    (copies : copyGrants copied toScope owner rows ids tables = some after) :
    Delivering after := by
  induction rows generalizing tables ids with
  | nil =>
    obtain rfl : tables = after := by simpa [copyGrants] using copies
    exact delivering
  | cons row rest ih =>
    rw [copyGrants.eq_def] at copies
    dsimp only at copies
    split at copies
    · exact ih delivering copies
    split at copies
    · cases copies
    · split at copies
      · cases copies
      · obtain ⟨middle, advanced, copies⟩ := Option.bind_eq_some_iff.mp copies
        refine ih (delivering_of_advances ?_ advanced).1 copies
        exact delivering.congr rfl rfl

theorem copyPresets_foldl {toScope : ResourceScope} (copied : String × PresetRow → String)
    (presets : List (String × PresetRow)) (tables : AccessTables) :
    (presets.foldl (fun tables entry => copyPreset toScope (copied entry) entry.2 tables)
        tables).subjects = tables.subjects ∧
      (presets.foldl (fun tables entry => copyPreset toScope (copied entry) entry.2 tables)
        tables).deliveries = tables.deliveries := by
  induction presets generalizing tables with
  | nil => exact ⟨rfl, rfl⟩
  | cons entry rest ih =>
    obtain ⟨subjects, deliveries⟩ := ih (copyPreset toScope (copied entry) entry.2 tables)
    rw [foldl_cons, subjects, deliveries]
    unfold copyPreset
    split <;> exact ⟨rfl, rfl⟩

theorem acknowledge_delivering {relayId : String} (items : List AuthorizationRevision)
    (delivering : Delivering tables) :
    Delivering (items.foldl (acknowledgeDelivery relayId) tables) := by
  induction items generalizing tables with
  | nil => exact delivering
  | cons item rest ih =>
    refine ih ?_
    unfold acknowledgeDelivery
    dsimp only
    split
    · exact delivering
    rename_i row known
    have bound := delivering _ row known
    intro id other found
    have standing : ∀ other, tables.deliveries.get id = some other →
        other.acknowledgedRevision ≤ other.desiredRevision ∧
          other.desiredRevision ≤ tables.revision id.subjectId := delivering id
    dsimp only at found
    split at found
    · rw [get_delete] at found
      split at found
      · cases found
      · exact standing other found
    rw [get_set] at found
    split at found
    · rename_i here
      subst here
      cases found
      refine ⟨?_, bound.2⟩
      dsimp only at bound ⊢
      omega
    · exact standing other found

/-- Every transaction keeps deliveries within their subjects' revisions. -/
theorem delivering_of_next {event : Nat × AccessAction} (sound : Sound catalog tables) (delivering : Delivering tables)
    (step : nextAccess catalog copiedPresetId tables event = some after) : Delivering after := by
  obtain ⟨now, action⟩ := event
  cases action with
  | invite user input =>
    obtain ⟨quiet, -⟩ := invite_leaves sound step
    exact delivering.congr quiet.subjects quiet.deliveries
  | decide user input =>
    obtain ⟨scope, -, decided⟩ := Option.bind_eq_some_iff.mp step
    obtain ⟨-, -, ⟨middle, users, subjects, deliveries, advanced⟩, -⟩ := decide_leaves decided
    exact (told_of_advanceAll (delivering.congr subjects deliveries) advanced).1
  | savePreset user input =>
    obtain ⟨preset, actor, -, -, -, -, -, -, advanced⟩ := savePreset_leaves step
    have delivers : Delivering { tables with presets := tables.presets.set input.presetId preset } :=
      delivering.congr rfl rfl
    exact (told_of_advanceAll delivers advanced).1
  | deletePreset user input =>
    obtain ⟨-, -, subjects, deliveries, -⟩ := deletePreset_leaves step
    exact delivering.congr subjects deliveries
  | updateAccess user input =>
    obtain ⟨actor, grant, row, middle, -, -, -, -, -, -, -, deliveries, subjects, -, -, advanced⟩ :=
      updateAccess_leaves step
    exact (delivering_of_advances (delivering.congr subjects deliveries) advanced).1
  | copyInstance fromScope toScope ids =>
    have copies : copyInstanceAccess copiedPresetId tables fromScope toScope ids = some after := step
    simp only [copyInstanceAccess, Option.bind_eq_bind, Option.bind_eq_some_iff] at copies
    obtain ⟨-, -, -, -, target, -, copies⟩ := copies
    obtain ⟨subjects, deliveries⟩ := copyPresets_foldl (fun entry => copiedPresetId entry.1 toScope)
      (tables.presets.entries.filter (·.2.scope = fromScope)) tables
    exact copyGrants_delivering (delivering.congr subjects deliveries) copies
  | deleteResource scope =>
    obtain ⟨middle, -, -, -, subjects, deliveries, advanced⟩ := deleteResource_leaves step
    exact (told_of_advanceAll (delivering.congr subjects deliveries) advanced).1
  | account id row =>
    exact delivering.congr (by rw [← Option.some.inj step]) (by rw [← Option.some.inj step])
  | resource scope row =>
    exact delivering.congr (by rw [← Option.some.inj step]) (by rw [← Option.some.inj step])
  | advance userId targets => exact (delivering_of_advances delivering step).1
  | acknowledge relayId items =>
    rw [← Option.some.inj step]
    exact acknowledge_delivering items delivering

theorem delivering_of_reachable
    (reachable : (accessSystem catalog copiedPresetId).Reachable tables) : Delivering tables := by
  refine System.Reachable.strengthen (I := Sound catalog) (fun _ => sound_of_reachable) ?_ ?_
    reachable
  · intro start unshared id row found
    simp [unshared.2.2.2] at found
  · intro before event after sound delivering step
    exact delivering_of_next sound delivering step

/-! ## Losing a permission -/

/-- A transaction that changes access, of those that do. -/
def AccessAction.changesAccess : AccessAction → Bool
  | .account _ _ => false
  | .resource _ _ => false
  | .advance _ _ => false
  | .acknowledge _ _ => false
  | _ => true

theorem granted_of_kept (id : String) (row kept : AccessGrantRow)
    (resources : after.resources = tables.resources) (stored : after.grants.get id = some kept)
    (holder : kept.userId = userId) (active : kept.state = .active)
    (sameScope : kept.scope = row.scope) (sameAssignment : kept.assignment = row.assignment)
    (presets : ∀ presetId ∈ row.assignment.presetIds,
      presetSelections after row.scope presetId = presetSelections tables row.scope presetId)
    (counts : covers row.scope scope = true)
    (conferred : Confers catalog tables row.scope row.assignment permission) :
    Granted catalog after userId scope permission :=
  ⟨id, kept, stored, holder, active, sameScope ▸ counts, by
    rw [sameScope, sameAssignment]
    exact (confers_congr presets resources).mpr conferred⟩

/-- Saving a preset tells the people of the active grants that are assigned it. -/
theorem told_of_savePreset {user : AuthenticatedUser} {input : SavePresetInput} (delivering : Delivering tables)
    (saved : savePermissionPreset catalog tables user input now = some after)
    (granted : Granted catalog tables userId scope permission)
    (lost : ¬ Granted catalog after userId scope permission) :
    ∃ changed, covers changed scope = true ∧ tables.revision userId < after.revision userId ∧
      Told after userId changed := by
  obtain ⟨preset, actor, atScope, -, -, stood, -, -, advanced⟩ := savePreset_leaves saved
  have same := sameAccess_of_advanceAll advanced
  have resources : after.resources = tables.resources := same.resources
  have delivers : Delivering { tables with presets := tables.presets.set input.presetId preset } :=
    delivering.congr rfl rfl
  obtain ⟨id, row, stored, holder, active, counts, conferred⟩ := granted
  -- a preset of another scope, or that the grant isn't assigned, gives the grant nothing
  have concerned : input.presetId ∈ row.assignment.presetIds ∧ row.scope = input.scope := by
    by_contra unconcerned
    refine lost (granted_of_kept id row row resources ?_ holder active rfl rfl
      (fun presetId chosen => ?_) counts conferred)
    · rw [same.grants]
      exact stored
    rw [presetSelections, presetSelections, same.presets, get_set]
    by_cases edited : input.presetId = presetId
    · subst edited
      have elsewhere : input.scope ≠ row.scope := fun here => unconcerned ⟨chosen, here.symm⟩
      rw [if_pos rfl]
      cases known : tables.presets.get input.presetId with
      | none => simp [atScope, elsewhere]
      | some old => simp [atScope, stood old known, elsewhere]
    · rw [if_neg edited]
  refine ⟨input.scope, concerned.2 ▸ counts, ?_⟩
  have uses : userId ∈ presetUsers
      { tables with presets := tables.presets.set input.presetId preset } input.presetId := by
    refine mem_dedup.mpr (mem_map.mpr ⟨(id, row), mem_filter.mpr ⟨get_eq_some.mp stored, ?_⟩, holder⟩)
    simp [concerned.1, active]
  exact (told_of_advanceAll delivers advanced).2.2.2 userId uses

theorem told_of_updateAccess {user : AuthenticatedUser} {input : UpdateAccessInput} (delivering : Delivering tables)
    (updated : updateResourceAccess catalog tables user input now = some after)
    (granted : Granted catalog tables userId scope permission)
    (lost : ¬ Granted catalog after userId scope permission) :
    ∃ changed, covers changed scope = true ∧ tables.revision userId < after.revision userId ∧
      Told after userId changed := by
  obtain ⟨actor, grant, row', middle, -, found, atScope, -, -, resources, presets, deliveries,
    subjects, gets, -, advanced⟩ := updateAccess_leaves updated
  have same := sameAccess_of_advances advanced
  have delivers := delivering.congr subjects deliveries
  obtain ⟨id, row, stored, holder, active, counts, conferred⟩ := granted
  have concerned : id = input.id := by
    by_contra apart
    refine lost (granted_of_kept id row row (same.resources.trans resources) ?_ holder
      active rfl rfl (fun presetId _ => presetSelections_congr (same.presets.trans presets) presetId)
      counts conferred)
    rw [same.grants, gets, if_neg apart]
    exact stored
  rw [concerned] at stored
  cases found.symm.trans stored
  obtain ⟨-, raised, -⟩ := delivering_of_advances delivers advanced
  refine ⟨input.scope, atScope ▸ counts, ?_, holder ▸ told_of_advances delivers advanced⟩
  rw [← holder, raised, AccessTables.revision, AccessTables.revision, subjects]
  exact Nat.lt_succ_self _

theorem told_of_deleteResource {deletedScope : ResourceScope} (delivering : Delivering tables)
    (deleted : deleteResourceAccess tables deletedScope now = some after)
    (granted : Granted catalog tables userId scope permission)
    (lost : ¬ Granted catalog after userId scope permission) :
    ∃ changed, covers changed scope = true ∧ tables.revision userId < after.revision userId ∧
      Told after userId changed := by
  obtain ⟨middle, resources, grants, presets, subjects, deliveries, advanced⟩ :=
    deleteResource_leaves deleted
  have same := sameAccess_of_advanceAll advanced
  obtain ⟨id, row, stored, holder, active, counts, conferred⟩ := granted
  have concerned : row.scope = deletedScope := by
    by_contra elsewhere
    refine lost (granted_of_kept id row row (same.resources.trans resources) ?_ holder
      active rfl rfl (fun presetId _ => ?_) counts conferred)
    · rw [same.grants, grants, get_filter, stored]
      simp [Option.filter, elsewhere]
    rw [presetSelections, presetSelections, same.presets, presets, get_filter]
    cases known : tables.presets.get presetId with
    | none => rfl
    | some preset =>
      by_cases deleted : preset.scope = deletedScope
      · have apart : deletedScope ≠ row.scope := fun here => elsewhere here.symm
        simp [Option.filter, deleted, apart]
      · simp [Option.filter, deleted]
  refine ⟨deletedScope, concerned ▸ counts, ?_⟩
  obtain ⟨-, -, -, told⟩ := told_of_advanceAll (delivering.congr subjects deliveries) advanced
  have toldHere := told userId (mem_map.mpr ⟨(id, row), mem_filter.mpr
    ⟨get_eq_some.mp stored, by simp [concerned]⟩, holder⟩)
  rwa [AccessTables.revision, subjects] at toldHere

/-- Whoever a transaction takes a permission of is told, for a scope that counts where they lost it. -/
theorem told_of_lost {event : Nat × AccessAction} (sound : Sound catalog tables)
    (delivering : Delivering tables) (changes : event.2.changesAccess = true)
    (step : nextAccess catalog copiedPresetId tables event = some after)
    (held : permission ∈ effectivePermissions catalog tables userId scope)
    (lost : permission ∉ effectivePermissions catalog after userId scope) :
    ∃ changed, covers changed scope = true ∧ tables.revision userId < after.revision userId ∧
      Told after userId changed := by
  have soundAfter := sound_of_next sound step
  -- what was owned is owned still, so that what is lost was granted
  have losing : ∀ resources : after.resources = tables.resources, Granted catalog tables userId scope permission ∧
        ¬ Granted catalog after userId scope permission := fun resources =>
    granted_of_enters soundAfter sound resources.symm held lost
  obtain ⟨now, action⟩ := event
  cases action with
  | invite user input =>
    obtain ⟨quiet, -⟩ := invite_leaves sound step
    obtain ⟨granted, ungranted⟩ := losing quiet.resources
    exact absurd (quiet.granted.mpr granted) ungranted
  | decide user input =>
    obtain ⟨decidedScope, -, decided⟩ := Option.bind_eq_some_iff.mp step
    obtain ⟨resources, presets, -, change, gets, like⟩ := decide_leaves decided
    obtain ⟨⟨id, row, stored, holder, active, counts, conferred⟩, ungranted⟩ := losing resources
    obtain ⟨sameUser, sameScope, sameAssignment, stillActive⟩ := like id row
    refine absurd (granted_of_kept id row (change id row) resources ?_
      (sameUser.trans holder) (stillActive active) sameScope sameAssignment
      (fun presetId _ => presetSelections_congr presets presetId) counts conferred) ungranted
    rw [gets, stored, Option.map_some]
  | savePreset user input =>
    have resources : after.resources = tables.resources := by
      obtain ⟨preset, actor, -, -, -, -, -, -, advanced⟩ := savePreset_leaves step
      exact (sameAccess_of_advanceAll advanced).resources
    exact told_of_savePreset delivering step (losing resources).1 (losing resources).2
  | deletePreset user input =>
    obtain ⟨resources, presets, -, -, gets, unused⟩ := deletePreset_leaves step
    obtain ⟨⟨id, row, stored, holder, active, counts, conferred⟩, ungranted⟩ := losing resources
    refine absurd (granted_of_kept id row row resources ?_ holder active rfl rfl
      (fun presetId chosen => ?_) counts conferred) ungranted
    · rw [gets, stored, Option.map_some, if_neg (by rw [active]; decide)]
    · have apart : input.id ≠ presetId := by
        rintro rfl
        exact unused id row stored (by rw [active]; decide) chosen
      rw [presetSelections, presetSelections, presets, get_delete, if_neg apart]
  | updateAccess user input =>
    have resources : after.resources = tables.resources := by
      obtain ⟨actor, grant, row, middle, -, -, -, -, -, resources, -, -, -, -, -, advanced⟩ :=
        updateAccess_leaves step
      exact (sameAccess_of_advances advanced).resources.trans resources
    exact told_of_updateAccess delivering step (losing resources).1 (losing resources).2
  | copyInstance fromScope toScope ids =>
    obtain ⟨grown, -⟩ := copyInstance_leaves sound step
    obtain ⟨⟨id, row, stored, holder, active, counts, item, assigns, gives⟩, ungranted⟩ :=
      losing grown.resources
    have capabilities : scopeCapabilities after row.scope = scopeCapabilities tables row.scope := by
      rw [scopeCapabilities, scopeCapabilities, grown.resources]
    refine absurd ⟨id, row, grown.grants id row stored, holder, active, counts, item, ?_,
      capabilities.symm ▸ gives⟩ ungranted
    rcases assigns with own | ⟨presetId, chosen, inside⟩ | builtIn
    · exact .inl own
    · refine Or.inr (.inl ⟨presetId, chosen, ?_⟩)
      unfold presetSelections at inside ⊢
      cases known : tables.presets.get presetId with
      | none => simp [known] at inside
      | some preset =>
        rw [known] at inside
        rw [grown.presets presetId preset known]
        exact inside
    · exact .inr (.inr builtIn)
  | deleteResource deletedScope =>
    have resources : after.resources = tables.resources := by
      obtain ⟨middle, resources, -, -, -, -, advanced⟩ := deleteResource_leaves step
      exact (sameAccess_of_advanceAll advanced).resources.trans resources
    exact told_of_deleteResource delivering step (losing resources).1 (losing resources).2
  | account id row => cases changes
  | resource owned row => cases changes
  | advance advanced targets => cases changes
  | acknowledge relayId items => cases changes

/-! ## The floors a delivery raises -/

/-- What a delivery is sent as (`authorization-delivery.ts:424-428`). -/
def deliveredItem (id : DeliveryId) (row : DeliveryRow) : AuthorizationRevision :=
  ⟨row.desiredRevision, id.scope, id.subjectId⟩

/-- A capability is for a resource. -/
def OnResource (capability : RelayBrowserCapabilityV2) (scope : ResourceScope) : Prop :=
  match scope.resourceType with
  | .instance' => capability.kind = .instance' ∧ capability.instanceId = scope.resourceId
  | .database => capability.kind = .database
  | .app => capability.kind = .app
  | .relay => capability.kind = .relay ∨ capability.kind = .platform

theorem deliveryScope_applies {changed : ResourceScope} (counts : covers changed scope = true)
    {capability : RelayBrowserCapabilityV2} (onResource : OnResource capability scope) :
    deliveryScope changed ∈ (authorityFromCapability capability).scopes := by
  rw [deliveryScope]
  by_cases server : changed.resourceType = .instance'
  · rw [if_pos server]
    obtain ⟨-, atRelay | ⟨sameType, sameId⟩⟩ := covers_iff.mp counts
    · rw [server] at atRelay
      cases atRelay
    · rw [OnResource, ← sameType, server] at onResource
      obtain ⟨kind, instanceId⟩ := onResource
      rw [sameId, ← instanceId]
      simp [Kiln.Relay.BrowserSessionAuthority.scopes, authorityFromCapability, kind]
  · rw [if_neg server]
    simp [Kiln.Relay.BrowserSessionAuthority.scopes]

theorem le_browserAuthority_of_delivered {id : DeliveryId} {row : DeliveryRow}
    {capability : RelayBrowserCapabilityV2} (subject : capability.subject = id.subjectId)
    (applies : id.scope ∈ (authorityFromCapability capability).scopes)
    {floors : BrowserTables} {items : List AuthorizationRevision} {generation : Option Nat}
    {receivedAt : Nat} (sent : deliveredItem id row ∈ items) (purpose : BrowserPurpose) :
    row.desiredRevision ≤ ((floors.reviseBrowserAuthorization capability.issuer items generation receivedAt).1
        |>.browserAuthority (BrowserRelay.scopeId capability purpose) capability.issuer
          capability.loginSessionId capability.subject).minimumRevision := by
  obtain ⟨persisted, returned, sameSubject, sameScope, high⟩ :=
    @BrowserTables.revise_persisted floors capability.issuer items generation receivedAt _ sent
  obtain ⟨kept, known, higher, -⟩ := BrowserTables.upserts_persisted _ returned
  refine Nat.le_trans (Nat.le_trans high higher) ?_
  refine @BrowserTables.le_browserAuthority _ ⟨capability.issuer, persisted, receivedAt⟩ capability
    purpose kept ⟨rfl, ?_, ?_⟩ known
  · exact sameSubject.trans subject.symm
  · exact sameScope ▸ applies

/-- Every loss of access is announced: in every reachable state, where a transaction that changes
    access takes a permission at a resource from someone, it advances their revision and leaves a
    delivery of it to the resource's Relay that is to be sent; and once the Relay commits what is
    sent, the floor of each capability of theirs on the resource is no lower. -/
theorem loss_is_announced {event : Nat × AccessAction}
    (reachable : (accessSystem catalog copiedPresetId).Reachable tables)
    (changes : event.2.changesAccess = true)
    (step : nextAccess catalog copiedPresetId tables event = some after) {userId : String}
    (held : permission ∈ effectivePermissions catalog tables userId scope)
    (lost : permission ∉ effectivePermissions catalog after userId scope) :
    tables.revision userId < after.revision userId ∧
      ∃ (id : DeliveryId) (row : DeliveryRow), id.relayId = scope.relayId ∧
        id.subjectId = userId ∧
        (id.scope = .subjectRelay ∨
          scope.resourceType = .instance' ∧ id.scope = .instance' scope.resourceId) ∧
        after.deliveries.get id = some row ∧ row.desiredRevision = after.revision userId ∧
        row.acknowledgedRevision < row.desiredRevision ∧
        ∀ capability purpose floors items generation receivedAt, capability.subject = userId →
          OnResource capability scope → deliveredItem id row ∈ items →
          row.desiredRevision ≤
            ((BrowserTables.reviseBrowserAuthorization floors capability.issuer items generation
                receivedAt).1
              |>.browserAuthority (BrowserRelay.scopeId capability purpose) capability.issuer
                capability.loginSessionId capability.subject).minimumRevision := by
  obtain ⟨changed, counts, risen, row, stored, desired, pending⟩ := told_of_lost
    (sound_of_reachable reachable) (delivering_of_reachable reachable) changes step held lost
  refine ⟨risen, ⟨changed.relayId, userId, deliveryScope changed⟩, row, (covers_iff.mp counts).1, rfl,
    ?_, stored, desired, pending, ?_⟩
  · rw [deliveryScope]
    by_cases server : changed.resourceType = .instance'
    · obtain ⟨-, atRelay | ⟨sameType, sameId⟩⟩ := covers_iff.mp counts
      · rw [server] at atRelay
        cases atRelay
      · rw [if_pos server]
        exact Or.inr ⟨sameType ▸ server, by rw [sameId]⟩
    · exact Or.inl (if_neg server)
  · intro capability purpose floors items generation receivedAt subject onResource sent
    exact le_browserAuthority_of_delivered subject (deliveryScope_applies counts onResource) sent
      purpose

/-- The owner takes the files back. -/
def revoking : Nat × AccessAction :=
  (3, .updateAccess { id := "owner" } ⟨server, "grant", 2, {}, true⟩)

def revokedGuest : AccessTables :=
  (nextAccess filesCatalog (fun id _ => id) acceptedGuest revoking).get (by decide)

/-- Taking back the files of a server is announced. -/
theorem loss_is_announced_revoked :
    acceptedGuest.revision "guest" < revokedGuest.revision "guest" ∧
      ∃ (id : DeliveryId) (row : DeliveryRow), id.relayId = "relay" ∧ id.subjectId = "guest" ∧
        (id.scope = .subjectRelay ∨
          server.resourceType = .instance' ∧ id.scope = .instance' server.resourceId) ∧
        revokedGuest.deliveries.get id = some row ∧
        row.desiredRevision = revokedGuest.revision "guest" ∧
        row.acknowledgedRevision < row.desiredRevision ∧
        ∀ capability purpose floors items generation receivedAt, capability.subject = "guest" →
          OnResource capability server → deliveredItem id row ∈ items →
          row.desiredRevision ≤
            ((BrowserTables.reviseBrowserAuthorization floors capability.issuer items generation
                receivedAt).1
              |>.browserAuthority (BrowserRelay.scopeId capability purpose) capability.issuer
                capability.loginSessionId capability.subject).minimumRevision :=
  have unshared : ownedServer.Unshared := ⟨rfl, rfl, rfl, rfl⟩
  have start : (accessSystem filesCatalog (fun id _ => id)).Reachable ownedServer := .init unshared
  have one : (accessSystem filesCatalog (fun id _ => id)).Reachable invitedGuest :=
    start.step (e := inviting) (Option.some_get _).symm
  have reachable : (accessSystem filesCatalog (fun id _ => id)).Reachable acceptedGuest :=
    one.step (e := accepting) (Option.some_get _).symm
  @loss_is_announced filesCatalog (fun id _ => id) acceptedGuest revokedGuest server
    "instance.files.read" revoking reachable rfl (Option.some_get _).symm "guest" (by decide)
    (by decide)

end Kiln.Hearth
