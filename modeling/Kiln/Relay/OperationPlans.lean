import Kiln.Relay.LaneKeys

/-!
# Which locks each kind of Relay work takes

`apps/relay/src/operation-plans.ts`. What the Relay looks up on the way, such as a game server's
full ID or the volumes an App mounts, is a parameter; a lookup that fails plans nothing.
-/

namespace Kiln.Relay
open Kiln.Operations

abbrev Locks := List (LaneLock String)

/-! ## Game servers, Apps and databases -/

def instanceLifecycleLocks (instanceId : String) : Locks :=
  [shared (laneKeys.instance' instanceId), exclusive (laneKeys.instanceLifecycle instanceId)]

def instanceStartLocks (instanceId : String) : Locks :=
  instanceLifecycleLocks instanceId ++ [shared laneKeys.routes]

def instancePowerLocks (instanceId action : String) : Locks :=
  if action = "start" ∨ action = "restart" then instanceStartLocks instanceId
  else instanceLifecycleLocks instanceId

def instanceFileLocks (instanceId : String) : Locks :=
  [shared (laneKeys.instance' instanceId), exclusive (laneKeys.instanceFiles instanceId)]

def instanceReadLocks (instanceId : String) : Locks :=
  [shared (laneKeys.instance' instanceId)]

def instanceReplaceLocks (instanceId : String) : Locks :=
  [exclusive (laneKeys.instance' instanceId)]

def appLifecycleLocks (appId : String) : Locks :=
  [shared (laneKeys.app appId), exclusive (laneKeys.appLifecycle appId)]

def appFileLocks (appId : String) : Locks :=
  [shared (laneKeys.app appId), exclusive (laneKeys.appFiles appId)]

def appReplaceLocks (appId : String) : Locks :=
  [exclusive (laneKeys.app appId)]

/-- Creating an App connected to databases, which may still be provisioning: it takes the databases' connections, and
not the databases (`operation-plans.ts:82-90`). -/
def appCreateLocks (appId : String) (databaseIds : List String) : Locks :=
  appReplaceLocks appId ++ databaseIds.map fun id => shared (laneKeys.databaseConnections id)

/-- `volumeReferenceLocks` (`operation-plans.ts:908-912`). A `Set` keeps the first of equals. -/
def volumeReferenceLocks (volumeIds : List String) : Locks :=
  volumeIds.eraseDups.map fun id => shared (laneKeys.volume id)

def appStartLocks (appId : String) (volumeIds : List String) : Locks :=
  appLifecycleLocks appId ++ volumeReferenceLocks volumeIds

def databaseLocks (databaseId : String) : Locks :=
  [exclusive (laneKeys.database databaseId)]

def databaseDeleteLocks (databaseId : String) : Locks :=
  databaseLocks databaseId ++ [exclusive (laneKeys.databaseConnections databaseId)]

def databaseLifecycleLocks (databaseId : String) : Locks :=
  [shared (laneKeys.database databaseId), exclusive (laneKeys.databaseLifecycle databaseId)]

def databaseReadLocks (databaseId : String) : Locks :=
  [shared (laneKeys.database databaseId), shared (laneKeys.databaseLifecycle databaseId)]

/-- `PowerResourceKind` (`operation-plans.ts:138`). -/
inductive PowerResourceKind where
  | app
  | database
  | instance'
  deriving DecidableEq, Repr

def resourcePowerLocks (kind : PowerResourceKind) (id action : String) : Locks :=
  match kind with
  | .instance' => instancePowerLocks id action
  | .app => appLifecycleLocks id
  | .database => databaseLifecycleLocks id

/-- `containerCommandLocks` (`operation-plans.ts:159-164`), for an App or else a database. -/
def containerCommandLocks (isApp : Bool) (id : String) : Locks :=
  if isApp then appLifecycleLocks id else databaseLifecycleLocks id

/-! ## File roots -/

/-- `appVolumeFileLocks` (`operation-plans.ts:177-183`). -/
def appVolumeFileLocks (appId volumeId : String) : Locks :=
  appFileLocks appId ++ [shared (laneKeys.volume volumeId), exclusive (laneKeys.volumeFiles volumeId)]

/-- `InstanceResolver`: a reference's full ID. -/
abbrev InstanceResolver := String → String

/-- `fileRootWriteLocks` (`operation-plans.ts:186-196`). -/
def fileRootWriteLocks (rootId : String) (resolveInstance : InstanceResolver) : Locks :=
  if isRelayFileRoot rootId then [exclusive laneKeys.hostFiles]
  else
    match appVolumeFromFileRoot rootId with
    | some (appId, volumeId) => appVolumeFileLocks appId volumeId
    | none =>
        match appIdFromFileRoot rootId with
        | some appId => appFileLocks appId
        | none => instanceFileLocks (resolveInstance rootId)

/-- `fileRootTransferLocks` (`operation-plans.ts:274-289`). -/
def fileRootTransferLocks (rootId : String) : Locks :=
  if isRelayFileRoot rootId then [shared laneKeys.hostFiles]
  else
    match databaseIdFromFileRoot rootId with
    | some databaseId => databaseReadLocks databaseId
    | none =>
        match appVolumeFromFileRoot rootId with
        | some (appId, volumeId) => [shared (laneKeys.app appId), shared (laneKeys.volume volumeId)]
        | none =>
            match appIdFromFileRoot rootId with
            | some appId => [shared (laneKeys.app appId)]
            | none => [shared (laneKeys.instance' rootId)]

/-- `fileRootCommitLocks` (`operation-plans.ts:297-312`), taken from inside the transfer. -/
def fileRootCommitLocks (rootId : String) : Locks :=
  if isRelayFileRoot rootId ∨ (databaseIdFromFileRoot rootId).isSome then []
  else
    match appVolumeFromFileRoot rootId with
    | some (appId, volumeId) =>
        [exclusive (laneKeys.appFiles appId), exclusive (laneKeys.volumeFiles volumeId)]
    | none =>
        match appIdFromFileRoot rootId with
        | some appId => [exclusive (laneKeys.appFiles appId)]
        | none => [exclusive (laneKeys.instanceFiles rootId)]

/-- `transferPackLocks` (`operation-plans.ts:319-321`). -/
def transferPackLocks (rootId : String) : Locks := fileRootTransferLocks rootId

/-- `transferInstallLocks` (`operation-plans.ts:327-332`). -/
def transferInstallLocks (rootId : String) : Locks :=
  if isRelayFileRoot rootId then [exclusive laneKeys.hostFiles]
  else
    match appIdFromFileRoot rootId with
    | some appId => appReplaceLocks appId
    | none => instanceReplaceLocks rootId

/-! ## Backups -/

inductive BackupTaskKind where
  | create
  | restore
  | delete
  | export
  | prune
  deriving DecidableEq, Repr

inductive BackupTargetKind where
  | instance'
  | database
  | platform
  | app
  | volume
  deriving DecidableEq, Repr

inductive BackupConsistency where
  | live
  | stopped
  deriving DecidableEq, Repr

inductive BackupReason where
  | manual
  | preRestore
  | finalDelete
  | scheduled
  deriving DecidableEq, Repr

/-- `BackupTaskInput`, as far as its locks go. The fields of a create are there for one only. -/
structure BackupTaskInput where
  kind : BackupTaskKind
  targetKind : BackupTargetKind
  targetId : String
  consistency : Option BackupConsistency := none
  reason : BackupReason := .manual
  /-- The App whose start-time coverage a live backup checks. -/
  appCoverage : Option String := none

/-- `backupTaskLocks` (`operation-plans.ts:210-251`). -/
def backupTaskLocks (input : BackupTaskInput) (resolveInstance : InstanceResolver)
    (resolveVolumeApps : String → List String) : Locks :=
  if input.kind ≠ .create ∧ input.kind ≠ .restore then []
  else
    let id := input.targetId
    let restore := input.kind = .restore
    let stopped := input.kind = .create ∧ (input.consistency = some .stopped ∨ input.reason = .finalDelete)
    match input.targetKind with
    | .app =>
        if restore then appReplaceLocks id
        else if stopped then appLifecycleLocks id
        else [shared (laneKeys.app id)]
    | .volume =>
        if restore ∨ stopped then
          exclusive (laneKeys.volume id) :: (resolveVolumeApps id).eraseDups.flatMap appLifecycleLocks
        else [shared (laneKeys.volume id)]
    | .instance' =>
        if restore then instanceReplaceLocks (resolveInstance id)
        else instanceReadLocks (resolveInstance id)
    | .database => if restore then databaseLocks id else databaseReadLocks id
    | .platform => [if restore then exclusive laneKeys.platform else shared laneKeys.platform]

/-- `backupCoverageLocks` (`operation-plans.ts:259-266`), taken from inside the backup. -/
def backupCoverageLocks (input : BackupTaskInput) : Locks :=
  if input.kind = .create ∧ input.consistency ≠ some .stopped ∧ input.reason ≠ .finalDelete then
    match input.appCoverage with
    | some appId => [exclusive (laneKeys.appLifecycle appId)]
    | none => []
  else []

/-! ## Tailscale stacks -/

/-- A member of a stack, and whether it is on. -/
structure TailscaleBinding where
  enabled : Bool
  memberId : String

/-- `FrozenResourceCheck`. -/
abbrev FrozenResourceCheck := PowerResourceKind → String → Bool

/-- What a resource of a stack takes: its locks where it joins or leaves, and else itself,
    shared, unless it is frozen. -/
def memberLocks (changes frozen : Bool) (changed : Locks) (key : String) : Locks :=
  if changes then changed else if frozen then [] else [shared key]

/-- `tailscaleMemberLocks` (`operation-plans.ts:359-406`). -/
def tailscaleMemberLocks (saved : List TailscaleBinding)
    (requested : Option (List TailscaleBinding)) (isFrozen : FrozenResourceCheck) : Locks :=
  let active := fun bindings : List TailscaleBinding =>
    (bindings.filter (·.enabled)).map (·.memberId)
  let before := active saved
  let after := active (requested.getD [])
  let named := (saved.map (·.memberId) ++ (requested.getD []).map (·.memberId)).eraseDups
  named.flatMap fun memberId =>
    let changes := decide (memberId ∈ before) != decide (memberId ∈ after)
    match appTailscaleMember memberId with
    | some (appId, _) =>
        memberLocks changes (isFrozen .app appId) (appLifecycleLocks appId) (laneKeys.app appId)
    | none =>
        match databaseTailscaleMember memberId with
        | some id =>
            memberLocks changes (isFrozen .database id) (databaseLocks id) (laneKeys.database id)
        | none =>
            match instanceTailscaleMember memberId with
            | some id =>
                memberLocks changes (isFrozen .instance' id) (instanceLifecycleLocks id) (laneKeys.instance' id)
            | none => []

/-! ## Control requests -/

/-- A value of a request's payload. -/
inductive Value where
  | string (value : String)
  | bool (value : Bool)
  | array (items : List Value)
  | object (fields : List (String × Value))
  /-- A number or null. -/
  | other

/-- `Record<string, unknown>`. -/
abbrev Payload := List (String × Value)

/-- `stringField` (`operation-plans.ts:918-924`). -/
def stringField (payload : Payload) (field : String) : Option String :=
  match payload.lookup field with
  | some (.string value) => if value.length > 0 then some value else none
  | _ => none

/-- `stringArray` (`operation-plans.ts:914-916`), of a field that may be missing. -/
def stringArray : Option Value → List String
  | some (.array items) => items.filterMap fun item =>
      match item with
      | .string value => some value
      | _ => none
  | _ => []

/-- `Array.isArray(payload[field]) ? payload[field] : []`. -/
def arrayField (payload : Payload) (field : String) : List Value :=
  match payload.lookup field with
  | some (.array items) => items
  | _ => []

/-- `requestedTailscaleBindings` (`operation-plans.ts:408-418`). -/
def requestedTailscaleBindings (payload : Payload) : List TailscaleBinding :=
  (arrayField payload "bindings").flatMap fun binding =>
    match binding with
    | .object entry =>
        match stringField entry "memberId" with
        | some memberId =>
            let off := match entry.lookup "enabled" with
              | some (.bool false) => true
              | _ => false
            [⟨!off, memberId⟩]
        | none => []
    | _ => []

/-- `resourceReplaceLocks` (`operation-plans.ts:880-897`). -/
def resourceReplaceLocks (kind id : String) (resolveInstance : InstanceResolver) :
    Option Locks :=
  match kind with
  | "instance" => some (instanceReplaceLocks (resolveInstance id))
  | "app" => some (appReplaceLocks id)
  | "database" => some (databaseLocks id)
  | "volume" => some [exclusive (laneKeys.volume id)]
  | _ => none

/-- The control requests, those that change nothing a lane guards as one. -/
inductive RelayControlOperation where
  | unguarded
  | relayDesktopAttach
  | relayPlatformAction
  | relayPlatformDatabaseWrite
  | relayInstallationReplace
  | relayHostPackagesUpdate
  | instanceCreate
  | relayNetworkingWrite
  | relayProxyWrite
  | relayProxyTrial
  | relayCertificatesCheck
  | relayVolumesCreate
  | relayVolumesRename
  | relayVolumesDelete
  | relayVolumesReferencesImport
  | relayTailscaleInstall
  | relayTailscaleWrite
  | relayTailscaleStackDns
  | relayTailscaleStackApply
  | relayTailscaleStackRemove
  | databaseCreate
  | databaseLimitsWrite
  | databaseAction
  | databaseWipe
  | databaseDelete
  | databaseCredentialsRotate
  | databaseDumpImport
  | databaseDataWrite
  | databaseDumpExport
  | databaseNetworkWrite
  | databaseNetworkImport
  | appCreate
  | appDeploymentAbort
  | appDelete
  | appLimitsWrite
  | appDeploy
  | appAction
  | appNetworkRoutesWrite
  | appVolumesWrite
  | instanceStartupWrite
  | instanceDelete
  | instanceNetworkDatabasesRemove
  | instanceLimitsWrite
  | instanceRename
  | instanceAction
  | instanceConsoleWrite
  | instanceConsoleComplete
  | instanceNetworkPortsWrite
  | instanceNetworkRoutesWrite
  | instanceFilesWrite
  | instanceFilesPut
  | instanceFilesUploadUrl
  | instanceFilesMutate
  | instanceFilesMutateResult
  | instanceFilesDatabaseWrite
  | resourceFreeze
  | resourceUnfreeze
  deriving DecidableEq, Repr

/-- What a request's locks are planned from, besides its payload. -/
structure PlanLookups where
  resolveInstance : InstanceResolver
  resolveAppVolumes : String → List String
  readTailscaleStack : Option (String → List TailscaleBinding) := none
  isFrozen : FrozenResourceCheck := fun _ _ => false

/-- The locks of a connection between a database and a member (`operation-plans.ts:747-769`). -/
def databaseNetworkLocks (payload : Payload) (resolveInstance : InstanceResolver) :
    Option Locks := do
  let databaseId ← stringField payload "databaseId"
  let .object member ← payload.lookup "member" | none
  let memberId ← stringField member "id"
  match member.lookup "kind" with
  | some (.string "instance") =>
      some (databaseLocks databaseId ++ instanceLifecycleLocks (resolveInstance memberId))
  | some (.string "app") => some (databaseLocks databaseId ++ appLifecycleLocks memberId)
  | some (.string "database") => some (databaseLocks databaseId ++ databaseLocks memberId)
  | _ => none

/-- The App of an entry of `database.network.import`. -/
def importAppId : Value → List String
  | .object entry => (stringField entry "appId").toList
  | _ => []

/-- The databases of an entry of `database.network.import`. -/
def importDatabaseIds : Value → List String
  | .object entry => (stringArray (entry.lookup "databaseIds")).filter (·.length > 0)
  | _ => []

/-- `controlRequestLocks` (`operation-plans.ts:442-877`). -/
def controlRequestLocks (operation : RelayControlOperation) (payload : Payload)
    (lookups : PlanLookups) : Option Locks :=
  let ofInstance := fun (locks : String → Locks) (field : String) =>
    (stringField payload field).map fun reference => locks (lookups.resolveInstance reference)
  let ofApp := fun (locks : String → Locks) (field : String) =>
    (stringField payload field).map locks
  let ofAppWithVolumes := fun locks : String → Locks =>
    (stringField payload "appId").map fun id =>
      locks id ++ volumeReferenceLocks (lookups.resolveAppVolumes id)
  let ofDatabase := fun (locks : String → Locks) (field : String) =>
    (stringField payload field).map locks
  let fileRoot := (stringField payload "instanceId").map fun rootId =>
    fileRootWriteLocks rootId lookups.resolveInstance
  match operation with
  | .unguarded => none
  | .relayDesktopAttach => some [exclusive laneKeys.desktop]
  | .relayPlatformAction => some [exclusive laneKeys.platform]
  | .relayPlatformDatabaseWrite => some [shared laneKeys.platform]
  | .relayInstallationReplace => some [exclusive laneKeys.platform]
  | .relayHostPackagesUpdate => some [exclusive laneKeys.hostPackages]
  | .instanceCreate => ofInstance instanceReplaceLocks "instanceId"
  | .relayNetworkingWrite | .relayProxyWrite | .relayProxyTrial | .relayCertificatesCheck =>
      some [exclusive laneKeys.routes]
  | .relayVolumesCreate | .relayVolumesRename | .relayVolumesDelete =>
      (stringField payload "id").map fun id => [exclusive (laneKeys.volume id)]
  | .relayVolumesReferencesImport =>
      some (volumeReferenceLocks ((arrayField payload "apps").flatMap fun app =>
        match app with
        | .object entry => stringArray (entry.lookup "volumeIds")
        | _ => []))
  | .relayTailscaleInstall | .relayTailscaleWrite =>
      some [exclusive laneKeys.tailscale, exclusive laneKeys.routes]
  | .relayTailscaleStackDns =>
      ofInstance (fun id => instanceReplaceLocks id ++ [shared laneKeys.tailscale]) "id"
  | .relayTailscaleStackApply =>
      ofInstance (fun stackId => instanceReplaceLocks stackId ++ shared laneKeys.tailscale ::
        tailscaleMemberLocks ((lookups.readTailscaleStack.map (· stackId)).getD [])
          (some (requestedTailscaleBindings payload)) lookups.isFrozen) "id"
  | .relayTailscaleStackRemove =>
      ofInstance (fun stackId => instanceReplaceLocks stackId ++ shared laneKeys.tailscale ::
        tailscaleMemberLocks ((lookups.readTailscaleStack.map (· stackId)).getD []) none lookups.isFrozen) "id"
  | .databaseCreate => ofDatabase databaseLocks "id"
  | .databaseLimitsWrite =>
      ofDatabase (fun id => databaseLocks id ++ [exclusive laneKeys.allocations]) "databaseId"
  | .databaseAction =>
      ofDatabase (fun id =>
        resourcePowerLocks .database id ((stringField payload "action").getD "")) "databaseId"
  | .databaseWipe | .databaseDelete => ofDatabase databaseDeleteLocks "databaseId"
  | .databaseCredentialsRotate | .databaseDumpImport | .databaseDataWrite =>
      ofDatabase databaseLocks "databaseId"
  | .databaseDumpExport => ofDatabase databaseReadLocks "databaseId"
  | .databaseNetworkWrite => databaseNetworkLocks payload lookups.resolveInstance
  | .databaseNetworkImport =>
      let apps := arrayField payload "apps"
      some ((apps.flatMap importAppId).eraseDups.map (fun id => shared (laneKeys.app id)) ++
        (apps.flatMap importDatabaseIds).eraseDups.map fun id => shared (laneKeys.database id))
  | .appCreate =>
      ofApp (fun id => appCreateLocks id (stringArray (payload.lookup "databaseIds"))) "id"
  | .appDeploymentAbort => ofApp (fun id => [shared (laneKeys.app id)]) "appId"
  | .appDelete => ofAppWithVolumes appReplaceLocks
  | .appLimitsWrite | .appDeploy => ofApp appLifecycleLocks "appId"
  | .appAction => ofAppWithVolumes appLifecycleLocks
  | .appNetworkRoutesWrite =>
      ofApp (fun id => appLifecycleLocks id ++ [exclusive laneKeys.routes]) "appId"
  | .appVolumesWrite =>
      ofApp (fun id => shared (laneKeys.app id) :: exclusive (laneKeys.appVolumes id) ::
        volumeReferenceLocks (stringArray (payload.lookup "volumeIds"))) "appId"
  | .instanceStartupWrite | .instanceDelete => ofInstance instanceReplaceLocks "instanceId"
  | .instanceNetworkDatabasesRemove | .instanceLimitsWrite =>
      ofInstance instanceLifecycleLocks "instanceId"
  | .instanceRename =>
      ofInstance (fun id => [shared (laneKeys.instance' id), exclusive (laneKeys.instanceMetadata id)]) "instanceId"
  | .instanceAction =>
      ofInstance (fun id =>
        resourcePowerLocks .instance' id ((stringField payload "action").getD "")) "instanceId"
  | .instanceConsoleWrite | .instanceConsoleComplete =>
      ofInstance instanceLifecycleLocks "instanceId"
  | .instanceNetworkPortsWrite | .instanceNetworkRoutesWrite =>
      ofInstance (fun id => instanceLifecycleLocks id ++ [exclusive laneKeys.routes]) "instanceId"
  | .instanceFilesWrite | .instanceFilesPut | .instanceFilesUploadUrl | .instanceFilesMutate
  | .instanceFilesMutateResult | .instanceFilesDatabaseWrite => fileRoot
  | .resourceFreeze | .resourceUnfreeze => do
      let kind ← stringField payload "kind"
      let id ← stringField payload "id"
      resourceReplaceLocks kind id lookups.resolveInstance

end Kiln.Relay
