import Kiln.Hearth.AccessChanges

/-!
# No one grants what they don't hold

A person's request to change access may confer a permission only where its actor holds it, or where
the grant conferred it already. So each permission a grant confers goes back to a request that
wrote it into the grant's assignment, or into a preset of it, whose actor held it there, and
the grant has conferred it ever since: through edits by people who don't hold it, while it was
pending, and as its presets changed.
-/

namespace Kiln.Hearth
open Kiln.Lib Kiln.Contracts

variable {catalog : PermissionCatalog} {copiedPresetId : String → ResourceScope → String}
  {start tables after : AccessTables} {scope : ResourceScope} {permission : String}

/-- Who made a request, of the transactions that are a person's. -/
def AccessAction.requester : AccessAction → Option AuthenticatedUser
  | .invite user _ => some user
  | .decide user _ => some user
  | .savePreset user _ => some user
  | .deletePreset user _ => some user
  | .updateAccess user _ => some user
  | _ => none

/-- A request of someone who is no administrator. -/
def byMember (tables : AccessTables) (event : Nat × AccessAction) : Bool :=
  match event.2.requester with
  | some user => (lockAccessActor tables user event.1).any (!isPlatformAdmin ·)
  | none => false

/-- Hearth's access, changed by people who are no administrators. -/
def memberSystem (catalog : PermissionCatalog)
    (copiedPresetId : String → ResourceScope → String) : System AccessTables (Nat × AccessAction) :=
  (accessSystem catalog copiedPresetId).restrict fun tables event => byMember tables event = true

/-- A grant confers a permission. -/
def Conferring (catalog : PermissionCatalog) (id : String) (scope : ResourceScope)
    (permission : String) (tables : AccessTables) : Prop :=
  ∃ row, tables.grants.get id = some row ∧ row.scope = scope ∧
    Confers catalog tables row.scope row.assignment permission

/-- A request wrote what a grant confers a permission by: its assignment, as an invitation or an edit of it, or a
selection that gives the permission in a preset it is assigned. -/
inductive Wrote (catalog : PermissionCatalog) (tables after : AccessTables) (id : String)
    (row : AccessGrantRow) (permission : String) : AccessAction → Prop
  | invited {user : AuthenticatedUser} {input : InviteInput} {target : InviteTarget}
      (among : target ∈ input.targets) (written : tables.grants.get id ≠ some row)
      (atScope : row.scope = target.scope)
      (assigned : row.assignment = AccessTables.stored target.assignment)
      (conferred : Confers catalog after row.scope row.assignment permission) :
      Wrote catalog tables after id row permission (.invite user input)
  | updated {user : AuthenticatedUser} {input : UpdateAccessInput} (named : input.id = id) (kept : input.revoke = false)
      (assigned : row.assignment = AccessTables.stored input.assignment)
      (conferred : Confers catalog after row.scope row.assignment permission) :
      Wrote catalog tables after id row permission (.updateAccess user input)
  | saved {user : AuthenticatedUser} {input : SavePresetInput} {item : PermissionSelection}
      (uses : input.presetId ∈ row.assignment.presetIds) (atScope : row.scope = input.scope)
      (chosen : item ∈ input.selections)
      (gives : catalog.Gives row.scope.resourceType (scopeCapabilities after row.scope) item permission) :
      Wrote catalog tables after id row permission (.savePreset user input)

/-! ## One request -/

variable {event : Nat × AccessAction}

theorem member_of_locked {user actor : AuthenticatedUser} (member : byMember tables event = true)
    (requested : event.2.requester = some user)
    (locked : lockAccessActor tables user event.1 = some actor) :
    isPlatformAdmin actor = false ∧ actor.id = user.id := by
  rw [byMember, requested] at member
  dsimp only at member
  rw [locked, Option.any_some, Bool.not_eq_true'] at member
  exact ⟨member, lockAccessActor_id locked⟩

/-- What a grant confers after a member's request it conferred before, or the request wrote it and its actor held it. -/
theorem confers_step (sound : Sound catalog tables) (member : byMember tables event = true)
    (step : nextAccess catalog copiedPresetId tables event = some after) {id : String}
    {row : AccessGrantRow} (stored : after.grants.get id = some row)
    (conferred : Confers catalog after row.scope row.assignment permission) :
    Conferring catalog id row.scope permission tables ∨ ∃ user, event.2.requester = some user ∧
        permission ∈ effectivePermissions catalog tables user.id row.scope ∧
        Wrote catalog tables after id row permission event.2 := by
  obtain ⟨now, action⟩ := event
  cases action with
  | invite user input =>
    obtain ⟨quiet, -, actor, locked, left⟩ := invite_leaves sound step
    obtain ⟨noAdmin, sameId⟩ := member_of_locked member rfl locked
    have before : Confers catalog tables row.scope row.assignment permission :=
      (confers_congr (fun id _ => presetSelections_congr quiet.presets id) quiet.resources).mp conferred
    by_cases written : tables.grants.get id = some row
    · exact .inl ⟨row, written, rfl, before⟩
    · obtain ⟨target, among, atScope, assigned, held⟩ :=
        (left id row stored).resolve_left written
      exact .inr ⟨user, rfl, sameId ▸ held noAdmin permission before,
        .invited among written atScope assigned conferred⟩
  | decide user input =>
    obtain ⟨decidedScope, -, decided⟩ := Option.bind_eq_some_iff.mp step
    obtain ⟨resources, presets, -, change, gets, like⟩ := decide_leaves decided
    rw [gets, Option.map_eq_some_iff] at stored
    obtain ⟨old, stored, rfl⟩ := stored
    obtain ⟨-, sameScope, sameAssignment, -⟩ := like id old
    rw [sameScope, sameAssignment, confers_congr (fun id _ => presetSelections_congr presets id) resources] at conferred
    exact .inl ⟨old, stored, sameScope.symm, conferred⟩
  | savePreset user input =>
    obtain ⟨preset, actor, atScope, selections, locked, stood, -, delegated, advanced⟩ :=
      savePreset_leaves step
    obtain ⟨noAdmin, sameId⟩ := member_of_locked member rfl locked
    have same := sameAccess_of_advanceAll advanced
    rw [same.grants] at stored
    have capabilities : ∀ scope, scopeCapabilities after scope = scopeCapabilities tables scope := by
      intro scope
      rw [scopeCapabilities, scopeCapabilities, same.resources]
    obtain ⟨item, assigns, gives⟩ := conferred
    -- only where the item is one of the preset's does the grant come to anything new
    have unlessPreset : Assigns catalog tables row.scope row.assignment item ∨
        (input.presetId ∈ row.assignment.presetIds ∧ row.scope = input.scope ∧ item ∈ input.selections) := by
      rcases assigns with own | ⟨presetId, chosen, inside⟩ | builtIn
      · exact .inl (.inl own)
      · by_cases edited : input.presetId = presetId
        · subst edited
          rw [presetSelections, same.presets, OrderedMap.get_set, if_pos rfl] at inside
          dsimp only at inside
          split at inside
          · rename_i here
            rw [selections, List.mem_dedup] at inside
            exact .inr ⟨chosen, here.symm.trans atScope, inside⟩
          · simp at inside
        · rw [presetSelections, same.presets, OrderedMap.get_set, if_neg edited] at inside
          exact .inl (.inr (.inl ⟨presetId, chosen, inside⟩))
      · exact .inl (.inr (.inr builtIn))
    rcases unlessPreset with assigned | ⟨uses, here, chosen⟩
    · exact .inl ⟨row, stored, rfl, item, assigned, capabilities row.scope ▸ gives⟩
    have gave := gives
    rw [capabilities, here] at gave
    rcases delegated noAdmin item chosen permission gave with
      ⟨old, found, earlier, among, gave⟩ | held
    · refine Or.inl ⟨row, stored, rfl, earlier, .inr (.inl ⟨input.presetId, uses, ?_⟩), here ▸ gave⟩
      rw [presetSelections, found]
      simpa [stood old found, here] using among
    · exact .inr ⟨user, rfl, sameId ▸ here ▸ held, .saved uses here chosen gives⟩
  | deletePreset user input =>
    obtain ⟨resources, presets, -, -, gets, -⟩ := deletePreset_leaves step
    rw [gets, Option.map_eq_some_iff] at stored
    obtain ⟨old, stored, made⟩ := stored
    have less : row.scope = old.scope ∧ row.assignment.selections = old.assignment.selections ∧
        row.assignment.builtinKeys = old.assignment.builtinKeys ∧
        ∀ presetId ∈ row.assignment.presetIds, presetId ∈ old.assignment.presetIds := by
      rw [← made]
      split
      · exact ⟨rfl, rfl, rfl, fun presetId chosen => List.mem_of_mem_filter chosen⟩
      · exact ⟨rfl, rfl, rfl, fun presetId chosen => chosen⟩
    obtain ⟨sameScope, sameSelections, sameBuiltins, fewerPresets⟩ := less
    obtain ⟨item, assigns, gives⟩ := conferred
    have capabilities : scopeCapabilities after old.scope = scopeCapabilities tables old.scope := by
      rw [scopeCapabilities, scopeCapabilities, resources]
    rw [sameScope, capabilities] at gives
    refine Or.inl ⟨old, stored, sameScope.symm, item, ?_, gives⟩
    rw [Assigns, sameScope, sameSelections, sameBuiltins] at assigns
    rcases assigns with own | ⟨presetId, chosen, inside⟩ | builtIn
    · exact .inl own
    · refine Or.inr (.inl ⟨presetId, fewerPresets presetId chosen, ?_⟩)
      rw [presetSelections, presets, OrderedMap.get_delete] at inside
      split at inside
      · rename_i preset found
        split at found
        · cases found
        · rw [presetSelections, found]
          exact inside
      · simp at inside
    · exact .inr (.inr builtIn)
  | updateAccess user input =>
    obtain ⟨actor, grant, row', middle, locked, found, -, -, sameScope, resources, presets, -, -,
      gets, left, advanced⟩ := updateAccess_leaves step
    obtain ⟨noAdmin, sameId⟩ := member_of_locked member rfl locked
    have same := sameAccess_of_advances advanced
    have before : Confers catalog tables row.scope row.assignment permission :=
      (confers_congr (fun id _ => presetSelections_congr (same.presets.trans presets) id)
        (same.resources.trans resources)).mp conferred
    rw [same.grants, gets] at stored
    split at stored
    · rename_i here
      cases stored
      rcases left with ⟨-, -, sameAssignment⟩ | ⟨kept, -, assigned, -, delegated⟩
      · rw [sameScope, sameAssignment] at before
        exact .inl ⟨grant, here ▸ found, sameScope.symm, before⟩
      · rcases delegated noAdmin permission before with earlier | held
        · exact .inl ⟨grant, here ▸ found, sameScope.symm, earlier⟩
        · exact .inr ⟨user, rfl, sameId ▸ held, .updated here.symm kept assigned conferred⟩
    · exact .inl ⟨row, stored, rfl, before⟩
  | copyInstance fromScope toScope ids => cases member
  | deleteResource deleted => cases member
  | account accountId account => cases member
  | resource owned resource => cases member
  | advance userId targets => cases member
  | acknowledge relayId items => cases member

/-- No member's request changes a resource or whose it is. -/
theorem resources_of_member (sound : Sound catalog tables) (member : byMember tables event = true)
    (step : nextAccess catalog copiedPresetId tables event = some after) :
    after.resources = tables.resources := by
  obtain ⟨now, action⟩ := event
  cases action with
  | invite user input => exact (invite_leaves sound step).1.resources
  | decide user input =>
    obtain ⟨scope, -, decided⟩ := Option.bind_eq_some_iff.mp step
    exact (decide_leaves decided).1
  | savePreset user input =>
    obtain ⟨preset, actor, -, -, -, -, -, -, advanced⟩ := savePreset_leaves step
    exact (sameAccess_of_advanceAll advanced).resources
  | deletePreset user input => exact (deletePreset_leaves step).1
  | updateAccess user input =>
    obtain ⟨actor, grant, row, middle, -, -, -, -, -, resources, -, -, -, -, -, advanced⟩ :=
      updateAccess_leaves step
    exact (sameAccess_of_advances advanced).resources.trans resources
  | copyInstance fromScope toScope ids => cases member
  | deleteResource deleted => cases member
  | account accountId account => cases member
  | resource owned resource => cases member
  | advance userId targets => cases member
  | acknowledge relayId items => cases member

/-! ## Every run -/

/-- A permission of a grant goes back to a request of the run: its actor held the permission at the grant's scope then
and wherever the grant counts, it wrote the permission into the grant, and the grant has conferred it since. -/
def GoesBack (catalog : PermissionCatalog) (copiedPresetId : String → ResourceScope → String)
    (start : AccessTables) (events : List (Nat × AccessAction)) (tables : AccessTables) (id : String)
    (scope : ResourceScope) (permission : String) : Prop :=
  ∃ before event later between written row user, events = before ++ event :: later ∧
      (memberSystem catalog copiedPresetId).Run start before between ∧
      nextAccess catalog copiedPresetId between event = some written ∧
      event.2.requester = some user ∧
      permission ∈ effectivePermissions catalog between user.id scope ∧
      (∀ reached, covers scope reached = true → permission ∈ effectivePermissions catalog between user.id reached) ∧
      written.grants.get id = some row ∧ row.scope = scope ∧
      Wrote catalog between written id row permission event.2 ∧
      ((memberSystem catalog copiedPresetId).restrict
        fun tables _ => Conferring catalog id scope permission tables).Run written later tables

theorem sound_of_run {events : List (Nat × AccessAction)} (unshared : start.Unshared)
    (run : (memberSystem catalog copiedPresetId).Run start events tables) :
    Sound catalog tables :=
  sound_of_reachable ⟨start, events, unshared, System.restrict_run run⟩

theorem goesBack_of_conferring {events : List (Nat × AccessAction)} (unshared : start.Unshared)
    (run : (memberSystem catalog copiedPresetId).Run start events tables) {id : String}
    (conferring : Conferring catalog id scope permission tables) :
    GoesBack catalog copiedPresetId start events tables id scope permission := by
  induction run with
  | nil =>
    obtain ⟨row, stored, -⟩ := conferring
    simp [unshared.1] at stored
  | @snoc between after events event earlier step ih =>
    obtain ⟨row, stored, rfl, conferred⟩ := conferring
    have sound := sound_of_run unshared earlier
    rcases confers_step sound step.1 step.2 stored conferred with
      before | ⟨user, requested, held, wrote⟩
    · obtain ⟨first, origin, later, middle, written, made, user, rfl, ran, stepped, requested, held,
        reaches, found, sameScope, wrote, since⟩ := ih before
      exact ⟨first, origin, later ++ [event], middle, written, made, user, by simp, ran, stepped,
        requested, held, reaches, found, sameScope, wrote, .snoc since ⟨before, step⟩⟩
    · exact ⟨events, event, [], between, after, row, user, rfl, earlier, step.2, requested, held,
        fun _ counts => effectivePermissions_covered sound counts held, stored, rfl, wrote, .nil _⟩

/-- No privilege escalation: in every run of members' requests, a permission that enters someone's
    effective permissions comes from an active grant of theirs that counts there, and goes back to a
    request of the run that wrote it into that grant or a preset of it, by someone who held it. -/
theorem permission_goes_back {events : List (Nat × AccessAction)} {event : Nat × AccessAction}
    (unshared : start.Unshared)
    (run : (memberSystem catalog copiedPresetId).Run start events tables)
    (step : (memberSystem catalog copiedPresetId).step tables event after) {userId : String}
    (enters : permission ∈ effectivePermissions catalog after userId scope)
    (absent : permission ∉ effectivePermissions catalog tables userId scope) :
    ∃ id row, after.grants.get id = some row ∧ row.userId = userId ∧ row.state = .active ∧
      covers row.scope scope = true ∧
      Confers catalog after row.scope row.assignment permission ∧
      GoesBack catalog copiedPresetId start (events ++ [event]) after id row.scope permission := by
  have runAfter := System.Run.snoc run step
  have granted := granted_of_enters (sound_of_run unshared run) (sound_of_run unshared runAfter)
    (resources_of_member (sound_of_run unshared run) step.1 step.2) enters absent
  obtain ⟨id, row, stored, holder, active, counts, conferred⟩ := granted.1
  exact ⟨id, row, stored, holder, active, counts, conferred,
    goesBack_of_conferring unshared runAfter ⟨row, stored, rfl, conferred⟩⟩

/-! ## A server that is shared -/

/-- A few entries of the catalog. -/
def filesCatalog : PermissionCatalog where
  definitions :=
    [{ key := "access.invite", block := "access", family := .shared,
       scopeTypes := [.relay, .instance', .database], implies := ["access.read"] },
     { key := "access.manage", block := "access", family := .shared,
       scopeTypes := [.relay, .instance', .database], implies := ["access.invite"] },
     { key := "access.read", block := "access", family := .shared, scopeTypes := [.relay, .instance', .database] },
     { key := "instance.read", block := "overview", family := .instance', scopeTypes := [.relay, .instance'] },
     { key := "instance.files.read", block := "instance.files", family := .instance',
       scopeTypes := [.relay, .instance'], implies := ["instance.read"] }]
  collections :=
    [⟨"access.all", [.relay, .instance', .database], [⟨.permission, "access.read"⟩, ⟨.permission, "access.invite"⟩,
          ⟨.permission, "access.manage"⟩], none⟩,
     ⟨"instance.files.all", [.relay, .instance'], [⟨.permission, "instance.files.read"⟩], none⟩,
     ⟨"all", [.relay, .instance', .database, .app],
        [⟨.collection, "access.all"⟩, ⟨.collection, "instance.files.all"⟩], none⟩]
  builtins := []
  relayScopeChildVisibility := []
  few := by decide
  definitionsFit := by decide
  collectionsFit := by decide
  all := by intro scopeType; cases scopeType <;> decide

def server : ResourceScope := ⟨"relay", .instance', "server"⟩

/-- A server with an owner, and another account. -/
def ownedServer : AccessTables where
  users := .ofEntries [("owner", ⟨"owner@kiln", .user, { emailVerifiedAt := some 1 }⟩),
     ("guest", ⟨"guest@kiln", .user, { emailVerifiedAt := some 1 }⟩)]
  resources := .ofEntries [(relayScope "relay", {}), (server, { ownerId := some "owner" })]

/-- The owner invites the other to the server's files. -/
def inviting : Nat × AccessAction :=
  (1, .invite { id := "owner" } ⟨"guest@kiln", "",
    [⟨server, { selections := [⟨.permission, "instance.files.read"⟩] }, "grant", "invitation"⟩]⟩)

def accepting : Nat × AccessAction := (2, .decide { id := "guest" } ⟨"invitation", .accept, false⟩)

def invitedGuest : AccessTables :=
  (nextAccess filesCatalog (fun id _ => id) ownedServer inviting).get (by decide)

def acceptedGuest : AccessTables :=
  (nextAccess filesCatalog (fun id _ => id) invitedGuest accepting).get (by decide)

/-- The files someone is let into by accepting go back to an invitation. -/
theorem permission_goes_back_accepted :
    ∃ id row, acceptedGuest.grants.get id = some row ∧ row.userId = "guest" ∧
      row.state = .active ∧ covers row.scope server = true ∧
      Confers filesCatalog acceptedGuest row.scope row.assignment "instance.files.read" ∧
      GoesBack filesCatalog (fun id _ => id) ownedServer ([inviting] ++ [accepting]) acceptedGuest id
        row.scope "instance.files.read" :=
  @permission_goes_back _ _ ownedServer invitedGuest acceptedGuest _ _ _ _ ⟨rfl, rfl, rfl, rfl⟩
    (System.Run.single ⟨by decide, (Option.some_get _).symm⟩)
    ⟨by decide, (Option.some_get _).symm⟩ _ (by decide) (by decide)

end Kiln.Hearth
