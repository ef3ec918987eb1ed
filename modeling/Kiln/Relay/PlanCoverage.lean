import Kiln.Relay.OperationPlans

/-!
# What covers the locks of nested work

Work the Relay runs inside an operation takes no lock that what the operation holds covers, a
part being covered by its whole held exclusively. That keeps out every operation that takes the
whole of each part it takes. Not all plans do: an App is created beside a change to a database it
joins, holding only the database's connections.
-/

namespace Kiln.Relay
open Kiln.Operations

/-- The lists of locks that the Relay's plans build. -/
inductive PlanBuilt : Locks → Prop where
  | instancePower (id action : String) : PlanBuilt (instancePowerLocks id action)
  | instanceFile (id : String) : PlanBuilt (instanceFileLocks id)
  | instanceRead (id : String) : PlanBuilt (instanceReadLocks id)
  | instanceReplace (id : String) : PlanBuilt (instanceReplaceLocks id)
  | appLifecycle (id : String) : PlanBuilt (appLifecycleLocks id)
  | appFile (id : String) : PlanBuilt (appFileLocks id)
  | appReplace (id : String) : PlanBuilt (appReplaceLocks id)
  | appCreate (id : String) (databaseIds : List String) : PlanBuilt (appCreateLocks id databaseIds)
  | appStart (id : String) (volumeIds : List String) : PlanBuilt (appStartLocks id volumeIds)
  | database (id : String) : PlanBuilt (databaseLocks id)
  | databaseDelete (id : String) : PlanBuilt (databaseDeleteLocks id)
  | databaseLifecycle (id : String) : PlanBuilt (databaseLifecycleLocks id)
  | databaseRead (id : String) : PlanBuilt (databaseReadLocks id)
  | resourcePower (kind : PowerResourceKind) (id action : String) : PlanBuilt (resourcePowerLocks kind id action)
  | containerCommand (isApp : Bool) (id : String) : PlanBuilt (containerCommandLocks isApp id)
  | fileRootWrite (rootId : String) (resolveInstance : InstanceResolver) :
      PlanBuilt (fileRootWriteLocks rootId resolveInstance)
  | fileRootTransfer (rootId : String) : PlanBuilt (fileRootTransferLocks rootId)
  | fileRootCommit (rootId : String) : PlanBuilt (fileRootCommitLocks rootId)
  | transferPack (rootId : String) : PlanBuilt (transferPackLocks rootId)
  | transferInstall (rootId : String) : PlanBuilt (transferInstallLocks rootId)
  | backupTask (input : BackupTaskInput) (resolveInstance : InstanceResolver)
      (resolveVolumeApps : String → List String) :
      PlanBuilt (backupTaskLocks input resolveInstance resolveVolumeApps)
  | backupCoverage (input : BackupTaskInput) : PlanBuilt (backupCoverageLocks input)
  | tailscaleMember (saved : List TailscaleBinding) (requested : Option (List TailscaleBinding))
      (isFrozen : FrozenResourceCheck) : PlanBuilt (tailscaleMemberLocks saved requested isFrozen)
  | resourceReplace {kind id : String} {resolveInstance : InstanceResolver} {locks : Locks}
      (plan : resourceReplaceLocks kind id resolveInstance = some locks) : PlanBuilt locks
  | controlRequest {operation : RelayControlOperation} {payload : Payload} {lookups : PlanLookups}
      {locks : Locks} (plan : controlRequestLocks operation payload lookups = some locks) :
      PlanBuilt locks

/-! ## The keys of the plans -/

/-- A key with a slash, at most, in what follows its kind. -/
def Shaped (key : String) : Prop :=
  '/' ∉ key.toList ∨ ∃ kind ∈ ["app:", "database:", "instance:", "volume:"], ∃ rest, key = kind ++ rest

variable {kind : String}

theorem shaped_kind (member : kind ∈ ["app:", "database:", "instance:", "volume:"]) (rest : String) :
    Shaped (kind ++ rest) :=
  Or.inr ⟨kind, member, rest, rfl⟩

theorem shaped_part (member : kind ∈ ["app:", "database:", "instance:", "volume:"])
    (id part : String) : Shaped (kind ++ id ++ part) :=
  Or.inr ⟨kind, member, id ++ part, String.append_assoc⟩

def ShapedLocks (locks : Locks) : Prop := ∀ lock ∈ locks, Shaped lock.key

@[simp] theorem shapedLocks_nil : ShapedLocks [] := by simp [ShapedLocks]

@[simp] theorem shapedLocks_cons (lock : LaneLock String) (locks : Locks) :
    ShapedLocks (lock :: locks) ↔ Shaped lock.key ∧ ShapedLocks locks := by simp [ShapedLocks]

@[simp] theorem shapedLocks_append (locks more : Locks) :
    ShapedLocks (locks ++ more) ↔ ShapedLocks locks ∧ ShapedLocks more := by
  simp only [ShapedLocks, List.mem_append]
  exact ⟨fun h => ⟨fun lock member => h lock (Or.inl member), fun lock member =>
    h lock (Or.inr member)⟩, fun h lock member => member.elim (h.1 lock) (h.2 lock)⟩

theorem shapedLocks_map {ids : List String} {make : String → LaneLock String}
    (each : ∀ id, Shaped (make id).key) : ShapedLocks (ids.map make) := by
  intro lock member
  obtain ⟨id, -, rfl⟩ := List.mem_map.mp member
  exact each id

theorem shapedLocks_flatMap {ids : List String} {make : String → Locks}
    (each : ∀ id, ShapedLocks (make id)) : ShapedLocks (ids.flatMap make) := by
  intro lock member
  obtain ⟨id, -, made⟩ := List.mem_flatMap.mp member
  exact each id lock made

section
open laneKeys

@[simp] theorem shaped_app (id : String) : Shaped (app id) := shaped_kind (by simp) id
@[simp] theorem shaped_appFiles (id : String) : Shaped (appFiles id) := shaped_part (by simp) id _
@[simp] theorem shaped_appLifecycle (id : String) : Shaped (appLifecycle id) :=
  shaped_part (by simp) id _
@[simp] theorem shaped_appVolumes (id : String) : Shaped (appVolumes id) :=
  shaped_part (by simp) id _
@[simp] theorem shaped_database (id : String) : Shaped (database id) := shaped_kind (by simp) id
@[simp] theorem shaped_databaseConnections (id : String) : Shaped (databaseConnections id) :=
  shaped_part (by simp) id _
@[simp] theorem shaped_databaseLifecycle (id : String) : Shaped (databaseLifecycle id) :=
  shaped_part (by simp) id _
@[simp] theorem shaped_instance (id : String) : Shaped (instance' id) := shaped_kind (by simp) id
@[simp] theorem shaped_instanceFiles (id : String) : Shaped (instanceFiles id) :=
  shaped_part (by simp) id _
@[simp] theorem shaped_instanceLifecycle (id : String) : Shaped (instanceLifecycle id) :=
  shaped_part (by simp) id _
@[simp] theorem shaped_instanceMetadata (id : String) : Shaped (instanceMetadata id) :=
  shaped_part (by simp) id _
@[simp] theorem shaped_volume (id : String) : Shaped (volume id) := shaped_kind (by simp) id
@[simp] theorem shaped_volumeFiles (id : String) : Shaped (volumeFiles id) :=
  shaped_part (by simp) id _

/-- The keys of the Relay itself have no slash. -/
@[simp] theorem shaped_relay : Shaped hostFiles ∧ Shaped hostPackages ∧ Shaped routes ∧
    Shaped allocations ∧ Shaped tailscale ∧ Shaped platform ∧ Shaped desktop := by
  refine ⟨?_, ?_, ?_, ?_, ?_, ?_, ?_⟩ <;> exact Or.inl (by decide)

end

/-! ## Every plan's keys are shaped -/

@[simp] theorem shapedLocks_instance (id : String) :
    ShapedLocks (instanceLifecycleLocks id) ∧ ShapedLocks (instanceFileLocks id) ∧
      ShapedLocks (instanceReadLocks id) ∧ ShapedLocks (instanceReplaceLocks id) := by
  simp [instanceLifecycleLocks, instanceFileLocks, instanceReadLocks, instanceReplaceLocks]

@[simp] theorem shapedLocks_instancePower (id action : String) :
    ShapedLocks (instancePowerLocks id action) := by
  unfold instancePowerLocks
  split <;> simp [instanceStartLocks]

@[simp] theorem shapedLocks_volumeReference (volumeIds : List String) :
    ShapedLocks (volumeReferenceLocks volumeIds) :=
  shapedLocks_map fun id => by simp

@[simp] theorem shapedLocks_app (id : String) :
    ShapedLocks (appLifecycleLocks id) ∧ ShapedLocks (appFileLocks id) ∧ ShapedLocks (appReplaceLocks id) := by
  simp [appLifecycleLocks, appFileLocks, appReplaceLocks]

@[simp] theorem shapedLocks_appCreate (id : String) (databaseIds : List String) :
    ShapedLocks (appCreateLocks id databaseIds) := by
  have joins : ShapedLocks (databaseIds.map fun id => shared (laneKeys.databaseConnections id)) :=
    shapedLocks_map fun id => by simp
  simp [appCreateLocks, joins]

@[simp] theorem shapedLocks_database (id : String) :
    ShapedLocks (databaseLocks id) ∧ ShapedLocks (databaseDeleteLocks id) ∧
      ShapedLocks (databaseLifecycleLocks id) ∧ ShapedLocks (databaseReadLocks id) := by
  simp [databaseLocks, databaseDeleteLocks, databaseLifecycleLocks, databaseReadLocks]

@[simp] theorem shapedLocks_resourcePower (kind : PowerResourceKind) (id action : String) :
    ShapedLocks (resourcePowerLocks kind id action) := by
  cases kind <;> simp [resourcePowerLocks]

@[simp] theorem shapedLocks_fileRootWrite (rootId : String) (resolveInstance : InstanceResolver) :
    ShapedLocks (fileRootWriteLocks rootId resolveInstance) := by
  unfold fileRootWriteLocks
  split
  · simp
  · cases appVolumeFromFileRoot rootId with
    | some volume => simp [appVolumeFileLocks]
    | none => cases appIdFromFileRoot rootId <;> simp

@[simp] theorem shapedLocks_fileRootTransfer (rootId : String) :
    ShapedLocks (fileRootTransferLocks rootId) := by
  unfold fileRootTransferLocks
  split
  · simp
  cases databaseIdFromFileRoot rootId with
  | some id => simp
  | none =>
    cases appVolumeFromFileRoot rootId with
    | some volume => simp
    | none => cases appIdFromFileRoot rootId <;> simp

theorem shapedLocks_fileRootCommit (rootId : String) :
    ShapedLocks (fileRootCommitLocks rootId) := by
  unfold fileRootCommitLocks
  split
  · simp
  · cases appVolumeFromFileRoot rootId with
    | some volume => simp
    | none => cases appIdFromFileRoot rootId <;> simp

theorem shapedLocks_transferInstall (rootId : String) :
    ShapedLocks (transferInstallLocks rootId) := by
  unfold transferInstallLocks
  split
  · simp
  · cases appIdFromFileRoot rootId <;> simp

theorem shapedLocks_backupTask (input : BackupTaskInput) (resolveInstance : InstanceResolver)
    (resolveVolumeApps : String → List String) :
    ShapedLocks (backupTaskLocks input resolveInstance resolveVolumeApps) := by
  have apps : ShapedLocks ((resolveVolumeApps input.targetId).eraseDups.flatMap appLifecycleLocks) :=
    shapedLocks_flatMap fun id => by simp
  unfold backupTaskLocks
  split
  · simp
  generalize input.targetKind = kind
  match kind with
  | .app => dsimp only; split <;> [simp; (split <;> simp)]
  | .volume => dsimp only; split <;> simp [apps]
  | .instance' => dsimp only; split <;> simp
  | .database => dsimp only; split <;> simp
  | .platform => dsimp only; split <;> simp

theorem shapedLocks_backupCoverage (input : BackupTaskInput) :
    ShapedLocks (backupCoverageLocks input) := by
  unfold backupCoverageLocks
  split
  · cases input.appCoverage <;> simp
  · simp

theorem shapedLocks_member {changes frozen : Bool} {changed : Locks} {key : String}
    (each : ShapedLocks changed) (own : Shaped key) :
    ShapedLocks (memberLocks changes frozen changed key) := by
  unfold memberLocks
  split
  · exact each
  · split <;> simp [own]

@[simp] theorem shapedLocks_tailscaleMember (saved : List TailscaleBinding)
    (requested : Option (List TailscaleBinding)) (isFrozen : FrozenResourceCheck) :
    ShapedLocks (tailscaleMemberLocks saved requested isFrozen) := by
  refine shapedLocks_flatMap fun memberId => ?_
  dsimp only
  cases appTailscaleMember memberId with
  | some member => exact shapedLocks_member (by simp) (by simp)
  | none =>
    cases databaseTailscaleMember memberId with
    | some id => exact shapedLocks_member (by simp) (by simp)
    | none =>
      cases instanceTailscaleMember memberId with
      | some id => exact shapedLocks_member (by simp) (by simp)
      | none => simp

variable {locks : Locks}

theorem shapedLocks_resourceReplace {id : String} {resolveInstance : InstanceResolver}
    (plan : resourceReplaceLocks kind id resolveInstance = some locks) :
    ShapedLocks locks := by
  unfold resourceReplaceLocks at plan
  split at plan <;> simp at plan <;> subst plan <;> simp

theorem shapedLocks_databaseNetwork {payload : Payload} {resolveInstance : InstanceResolver}
    (plan : databaseNetworkLocks payload resolveInstance = some locks) :
    ShapedLocks locks := by
  simp only [databaseNetworkLocks, Option.bind_eq_bind, Option.bind_eq_some_iff] at plan
  obtain ⟨databaseId, -, member, -, plan⟩ := plan
  split at plan
  · obtain ⟨memberId, -, plan⟩ := Option.bind_eq_some_iff.mp plan
    split at plan <;> simp at plan <;> subst plan <;> simp
  · cases plan

theorem shapedLocks_controlRequest {operation : RelayControlOperation} {payload : Payload}
    {lookups : PlanLookups} (plan : controlRequestLocks operation payload lookups = some locks) :
    ShapedLocks locks := by
  cases operation with
  | unguarded => exact absurd plan (by simp [controlRequestLocks])
  | relayDesktopAttach | relayPlatformAction | relayPlatformDatabaseWrite
  | relayInstallationReplace | relayHostPackagesUpdate | relayNetworkingWrite | relayProxyWrite
  | relayProxyTrial | relayCertificatesCheck | relayTailscaleInstall | relayTailscaleWrite
  | relayVolumesReferencesImport =>
    cases plan
    simp
  | databaseNetworkImport =>
    cases plan
    rw [shapedLocks_append]
    exact ⟨shapedLocks_map fun id => by simp, shapedLocks_map fun id => by simp⟩
  | databaseNetworkWrite => exact shapedLocks_databaseNetwork plan
  | resourceFreeze | resourceUnfreeze =>
    simp only [controlRequestLocks, Option.bind_eq_bind, Option.bind_eq_some_iff] at plan
    obtain ⟨kind, -, id, -, plan⟩ := plan
    exact shapedLocks_resourceReplace plan
  | instanceCreate | instanceStartupWrite | instanceDelete | instanceNetworkDatabasesRemove
  | instanceLimitsWrite | instanceRename | instanceAction | instanceConsoleWrite
  | instanceConsoleComplete | instanceNetworkPortsWrite | instanceNetworkRoutesWrite
  | instanceFilesWrite | instanceFilesPut | instanceFilesUploadUrl | instanceFilesMutate
  | instanceFilesMutateResult | instanceFilesDatabaseWrite | relayVolumesCreate
  | relayVolumesRename | relayVolumesDelete | relayTailscaleStackDns | relayTailscaleStackApply
  | relayTailscaleStackRemove | databaseCreate | databaseLimitsWrite | databaseAction
  | databaseWipe | databaseDelete | databaseCredentialsRotate | databaseDumpImport
  | databaseDataWrite | databaseDumpExport | appCreate | appDeploymentAbort | appDelete
  | appLimitsWrite | appDeploy | appAction | appNetworkRoutesWrite | appVolumesWrite =>
    obtain ⟨id, -, rfl⟩ := Option.map_eq_some_iff.mp plan
    simp

theorem PlanBuilt.shaped (built : PlanBuilt locks) : ShapedLocks locks := by
  cases built with
  | instancePower | instanceFile | instanceRead | instanceReplace | appLifecycle | appFile
  | appReplace | appCreate | database | databaseDelete | databaseLifecycle | databaseRead
  | resourcePower | fileRootWrite | fileRootTransfer | tailscaleMember => simp
  | appStart => simp [appStartLocks]
  | containerCommand isApp id => cases isApp <;> simp [containerCommandLocks]
  | fileRootCommit rootId => exact shapedLocks_fileRootCommit rootId
  | transferPack rootId => exact shapedLocks_fileRootTransfer rootId
  | transferInstall rootId => exact shapedLocks_transferInstall rootId
  | backupTask => exact shapedLocks_backupTask _ _ _
  | backupCoverage input => exact shapedLocks_backupCoverage input
  | resourceReplace plan => exact shapedLocks_resourceReplace plan
  | controlRequest plan => exact shapedLocks_controlRequest plan

/-! ## Wholes -/

/-- The whole of a plan's part is a resource, which a plan replaces. -/
theorem Shaped.whole {key whole : String} (shaped : Shaped key)
    (isWhole : wholeKey key = some whole) : PlanBuilt [exclusive whole] := by
  unfold wholeKey before at isWhole
  split at isWhole
  · rename_i slash
    cases isWhole
    rcases shaped with plain | ⟨kind, member, rest, rfl⟩
    · exact absurd slash plain
    -- The first slash is past the kind.
    have plain : kind.toList.all (· ≠ '/') = true := by
      revert member
      simp only [List.mem_cons, List.not_mem_nil, or_false]
      rintro (rfl | rfl | rfl | rfl) <;> rfl
    have whole : String.ofList ((kind ++ rest).toList.takeWhile (· ≠ '/')) =
        kind ++ String.ofList (rest.toList.takeWhile (· ≠ '/')) := by
      rw [String.toList_append, List.takeWhile_append_of_pos (by simpa using plain),
        String.ofList_append, String.ofList_toList]
    rw [whole]
    generalize String.ofList (rest.toList.takeWhile (· ≠ '/')) = id
    simp only [List.mem_cons, List.not_mem_nil, or_false] at member
    rcases member with rfl | rfl | rfl | rfl
    · exact .appReplace id
    · exact .database id
    · exact .instanceReplace id
    · exact @PlanBuilt.resourceReplace "volume" id (fun reference => reference) _ rfl
  · cases isWhole

/-- Nested work under what `held` holds is protected from what `other` holds: whatever it may do without a lock of its
own, it may do beside it. -/
def Protected (held other : Locks) : Prop :=
  ∀ wanted, uncovered (normalizeLocks wanted) (normalizeLocks held) = [] →
    Beside (normalizeLocks other) (normalizeLocks wanted)

theorem normalizeLocks_exclusive (key : String) : normalizeLocks [exclusive key] = [exclusive key] := rfl

/-- A lock on a part of what is held exclusively is all that nested work isn't protected from. -/
theorem protected_iff {held other : Locks} (beside : Beside (normalizeLocks other) (normalizeLocks held)) :
    Protected held other ↔ ∀ lock ∈ other, ∀ whole, wholeKey lock.key = some whole → exclusive whole ∉ held := by
  have apart := (beside_normalizeLocks _ _).mp beside
  constructor
  · intro safe lock member whole isWhole strong
    -- Nested work may change the part, whose holder it has no lock against.
    have covered : uncovered (normalizeLocks [exclusive lock.key]) (normalizeLocks held) = [] :=
      uncoveredBy_part (normalizeLocks_oneLockPerKey held) isWhole (by simpa using strong)
    have free := (beside_normalizeLocks _ _).mp (safe _ covered)
    obtain ⟨taken, among, same⟩ := List.mem_map.mp
      ((mem_keys_normalizeLocks other lock.key).mpr (List.mem_map_of_mem member))
    exact free ⟨exclusive lock.key, by simp [normalizeLocks_exclusive], taken, among, same.symm, Or.inl rfl⟩
  · intro noPart wanted covered
    rw [beside_normalizeLocks]
    refine covered_apart covered apart fun lock member whole isWhole strong => ?_
    obtain ⟨source, among, same⟩ := List.mem_map.mp
      ((mem_keys_normalizeLocks other lock.key).mp (List.mem_map_of_mem member))
    exact noPart source among whole (same ▸ isWhole) (by simpa using strong)

theorem protected_of_takesWholes {other : Locks} (wholes : TakesWholes wholeKey other) {held : Locks}
    (beside : Beside (normalizeLocks other) (normalizeLocks held)) : Protected held other := by
  rw [protected_iff beside]
  intro lock member whole isWhole strong
  have apart := (beside_normalizeLocks _ _).mp beside
  obtain ⟨taken, among, same⟩ := List.mem_map.mp
    ((mem_keys_normalizeLocks other whole).mpr (wholes lock member whole isWhole))
  exact apart ⟨exclusive whole, by simpa using strong, taken, among, same.symm, Or.inl rfl⟩

/-- Beside a plan's locks, nested work under another plan's is protected exactly where none of
    them is for a part of what that one holds exclusively; and under every plan's, exactly where
    they take the whole of each part they take. -/
theorem nested_coverage (other : Locks) (built : PlanBuilt other) :
    (∀ held, PlanBuilt held → Beside (normalizeLocks other) (normalizeLocks held) →
      (Protected held other ↔
        ∀ lock ∈ other, ∀ whole, wholeKey lock.key = some whole → exclusive whole ∉ held)) ∧
    ((∀ held, PlanBuilt held → Beside (normalizeLocks other) (normalizeLocks held) →
      Protected held other) ↔ TakesWholes wholeKey other) := by
  refine ⟨fun held _ beside => protected_iff beside, ?_, ?_⟩
  · intro safe lock member whole isWhole
    by_contra bare
    have replaces := (built.shaped lock member).whole isWhole
    have beside : Beside (normalizeLocks other) (normalizeLocks [exclusive whole]) := by
      rw [beside_normalizeLocks, normalizeLocks_exclusive]
      rintro ⟨held, isHeld, taken, among, same, -⟩
      obtain rfl : held = exclusive whole := by simpa using isHeld
      exact bare ((mem_keys_normalizeLocks other whole).mp
        (List.mem_map.mpr ⟨taken, among, same.symm⟩))
    exact (protected_iff beside).mp (safe _ replaces beside) lock member whole isWhole (by simp)
  · exact fun wholes held _ beside => protected_of_takesWholes wholes beside

/-- A power change of one database is safe beside any change to another, and what that does
    nested. -/
theorem nested_coverage_power : Protected (databaseLocks "e") (databaseLifecycleLocks "d") :=
  (nested_coverage _ (.databaseLifecycle "d")).2.mpr (by decide) _ (.database "e") (by decide)

/-- An App is created that joins a database, while the database is changed: deleting it from
    inside the change takes no further lock. -/
theorem app_joins_deleted_database :
    ¬ ∀ held, PlanBuilt held → ∀ other, PlanBuilt other →
      Beside (normalizeLocks other) (normalizeLocks held) →
        ∀ wanted, uncovered (normalizeLocks wanted) (normalizeLocks held) = [] →
          Beside (normalizeLocks other) (normalizeLocks wanted) := by
  intro sound
  have clash := sound _ (.database "d") _ (.appCreate "a" ["d"]) (by decide)
    (databaseDeleteLocks "d") (by decide)
  exact absurd clash (by decide)

/-! ## Which plans take the wholes of their parts -/

end Kiln.Relay
