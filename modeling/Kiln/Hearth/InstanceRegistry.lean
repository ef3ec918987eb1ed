import Mathlib

/-!
# The instance records of one Relay

The statements of apps/web/src/lib/instance-registry.ts on the rows of one Relay, with `claimInstanceOwner` of
lib/access.ts and the transfer of lib/platform-access.ts, and `instanceDirectoryMetadata` of instance-directory.ts.
MySQL evaluates the assignments of an upsert left to right, each reading what the ones before it wrote, and a
transaction here locks what it touches, so each is one function on the records.
-/

namespace Kiln.Hearth

/-- `Metadata` (`instance-directory.ts:8-17`), which its column stores as JSON. -/
structure DirectoryMetadata where
  brickId : Option String
  game : String
  implementation : String
  version : String
  connectAddress : String
  publicHost : Option String
  publicPort : Option Nat
  tailscaleEnabled : Bool
  deriving DecidableEq

/-- `DirectoryInstance`, its name in UTF-16 code units. -/
structure DirectoryInstance where
  id : String
  name : List UInt16
  brickId : Option String := none
  game : String
  implementation : String
  version : String
  connectAddress : String
  publicHost : Option String := none
  publicPort : Option Nat := none
  tailscaleEnabled : Bool := false
  deriving DecidableEq

def instanceDirectoryMetadata (instance_ : DirectoryInstance) : DirectoryMetadata where
  brickId := instance_.brickId
  game := instance_.game
  implementation := instance_.implementation
  version := instance_.version
  connectAddress := instance_.connectAddress
  publicHost := instance_.publicHost
  publicPort := instance_.publicPort
  tailscaleEnabled := instance_.tailscaleEnabled

/-- `instance.name.slice(0, 255)` -/
def DirectoryInstance.sourceName (instance_ : DirectoryInstance) : List UInt16 := instance_.name.take 255

/-- A row, with the columns' defaults. -/
structure InstanceRecord where
  sourceName : Option (List UInt16) := none
  directoryMetadata : Option DirectoryMetadata := none
  ownerId : Option String := none
  ownerProvisional : Bool := false
  provisioningReservedUntil : Option Nat := none
  deriving DecidableEq

/-- The rows of the Relay, by their instance's ID. -/
abbrev InstanceRecords := String → Option InstanceRecord

/-! ## Owners -/

/-- What befalls a row's owner. -/
inductive OwnerChange where
  /-- `claimInstanceOwner` -/
  | claim (ownerId : String)
  /-- The Relay's owner, if it has one, recorded provisionally. -/
  | standIn (ownerId : Option String)
  /-- A transfer. -/
  | choose (ownerId : String)
  deriving DecidableEq

def OwnerChange.apply (row : InstanceRecord) : OwnerChange → InstanceRecord
  | .claim owner =>
      let ownerId := if row.ownerId.isNone || row.ownerProvisional then some owner else row.ownerId
      { row with
        ownerId
        ownerProvisional := if ownerId = some owner then false else row.ownerProvisional }
  | .standIn owner =>
      { row with
        ownerProvisional := if row.ownerId.isNone then true else row.ownerProvisional
        ownerId := row.ownerId.or owner }
  | .choose owner => { row with ownerId := some owner, ownerProvisional := false }

/-! ## Statements -/

/-- The name and metadata that an upsert and the directory worker write. -/
def InstanceRecord.describe (row : InstanceRecord) (instance_ : DirectoryInstance) : InstanceRecord :=
  { row with
    sourceName := some instance_.sourceName
    directoryMetadata := some (instanceDirectoryMetadata instance_) }

namespace InstanceRecords

/-- `INSERT … ON DUPLICATE KEY UPDATE`, whose new row is what the update makes of one with the columns' defaults. -/
def upsert (records : InstanceRecords) (id : String) (change : InstanceRecord → InstanceRecord) : InstanceRecords :=
  Function.update records id (some (change ((records id).getD {})))

/-- `UPDATE … JOIN`: the rows that there are of instances. -/
def updateListed (records : InstanceRecords) (instances : List DirectoryInstance)
    (change : InstanceRecord → DirectoryInstance → InstanceRecord) : InstanceRecords := fun id =>
  (records id).map fun row =>
    match instances.find? (·.id = id) with
    | some instance_ => change row instance_
    | none => row

/-- `reservePreparedInstanceEffect`, until two minutes from its clock. -/
def reservePrepared (records : InstanceRecords) (id owner : String) (now : Nat) : InstanceRecords :=
  records.upsert id fun row =>
    { (OwnerChange.claim owner).apply row with provisioningReservedUntil := some (now + 2 * 60000) }

/-- `registerPreparedInstanceEffect` -/
def registerPrepared (records : InstanceRecords) (instance_ : DirectoryInstance) (owner : String) : InstanceRecords :=
  records.upsert instance_.id fun row =>
    { (OwnerChange.claim owner).apply (row.describe instance_) with provisioningReservedUntil := none }

/-- `recordCreatedInstanceEffect` -/
def recordCreated (records : InstanceRecords) (instance_ : DirectoryInstance) (owner : String) : InstanceRecords :=
  records.upsert instance_.id fun row => (OwnerChange.claim owner).apply (row.describe instance_)

/-- `unregisterInstanceEffect` -/
def unregister (records : InstanceRecords) (id : String) : InstanceRecords := Function.update records id none

/-- The DELETE of a reconciliation. -/
def deleteUnkept (records : InstanceRecords) (kept : List String) (now : Nat) : InstanceRecords := fun id =>
  (records id).filter fun row =>
    decide (id ∈ kept) || row.provisioningReservedUntil.any (now < ·)

/-- The transaction of `syncInstanceRegistryEffect`. -/
def sync (records : InstanceRecords) (listed : List DirectoryInstance) (kept : List String) (now : Nat)
    (relayOwner : Option String) : InstanceRecords :=
  (listed.foldl (fun records instance_ => records.upsert instance_.id fun row =>
    (OwnerChange.standIn relayOwner).apply (row.describe instance_)) records).deleteUnkept kept now

/-- `updateInstanceDirectoryEffect` -/
def updateDirectory (records : InstanceRecords) (instances : List DirectoryInstance) : InstanceRecords :=
  records.updateListed instances InstanceRecord.describe

/-- `backfillInstanceSourceNamesEffect` -/
def backfillSourceNames (records : InstanceRecords) (instances : List DirectoryInstance) : InstanceRecords :=
  records.updateListed instances fun row instance_ =>
    { row with
      sourceName := row.sourceName.or (some instance_.sourceName)
      directoryMetadata := row.directoryMetadata.or (some (instanceDirectoryMetadata instance_)) }

/-- `updateInstanceSourceNameEffect` -/
def updateSourceName (records : InstanceRecords) (id : String) (name : List UInt16) : InstanceRecords :=
  Function.update records id ((records id).map fun row => { row with sourceName := some (name.take 255) })

/-- The claim of `instanceOwnerId` (`access.ts:816-838`) and a transfer (`platform-access.ts:355-364`). -/
def changeOwner (records : InstanceRecords) (id : String) (change : OwnerChange) : InstanceRecords :=
  records.upsert id change.apply

end InstanceRecords

end Kiln.Hearth
