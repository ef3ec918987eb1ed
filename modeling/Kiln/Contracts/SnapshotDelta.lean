import Kiln.Lib.Json
import Kiln.Lib.OrderedMap

/-!
# Relay snapshot deltas

`packages/contracts/src/index.ts:3593-3742`: what a Relay sends Hearth when its snapshot
changes, and how Hearth brings its copy up to date. What changed is told by the control state of
the node and of each instance, without their resource samples, so the copy lags behind in what
isn't compared.
-/

namespace Kiln.Contracts
open Kiln.Lib

/-- What `Object.is` compares: a number is told by its bits. -/
inductive JsonAtom where
  | undefined
  | null
  | bool (value : Bool)
  | number (bits : UInt64)
  | string (text : String)
  deriving DecidableEq, Repr

abbrev JsonValue := Json JsonAtom

/-- The fields of an object, each named once. -/
abbrev JsonObject := List (String × JsonValue)

mutual
/-- `jsonValueEqual` (`index.ts:3718-3742`). -/
def jsonValueEqual : JsonValue → JsonValue → Bool
  | .atom left, .atom right => left = right
  | .array left, .array right => left.length = right.length && everyItem left right
  | .object left, .object right => left.length = right.length && everyField left right
  | _, _ => false

/-- `left.every((value, index) => jsonValueEqual(value, right[index]))`. -/
def everyItem : List JsonValue → List JsonValue → Bool
  | value :: rest, other :: others => jsonValueEqual value other && everyItem rest others
  | _, _ => true

/-- Each field of the left is a field of the right, with an equal value. -/
def everyField : JsonObject → JsonObject → Bool
  | [], _ => true
  | (key, value) :: rest, right =>
      (match Json.field key right with
      | some other => jsonValueEqual value other
      | none => false) && everyField rest right
end

/-- `RelayInstance`, with the fields other than its ID. -/
structure RelayInstance where
  id : String
  fields : JsonObject

/-- An instance as the object it is. -/
def RelayInstance.object (inst : RelayInstance) : JsonObject :=
  ("id", .atom (.string inst.id)) :: inst.fields

/-- `RelayNode`. -/
abbrev RelayNode := JsonObject

/-- `relaySnapshotSchema` (`index.ts:2855-2859`). -/
structure RelaySnapshot where
  node : RelayNode
  instances : List RelayInstance
  relay : Option JsonObject

/-- `relaySnapshotDeltaSchema` (`index.ts:2867-2872`). -/
structure RelaySnapshotDelta where
  deletedInstanceIds : List String
  instances : List RelayInstance
  node : Option RelayNode
  relay : Option JsonObject

/-- `relayInstanceControlState` (`index.ts:3700-3703`). -/
def relayInstanceControlState (inst : RelayInstance) : JsonValue :=
  .object (inst.object.filter (·.1 ≠ "resources"))

/-- The resource samples of a node (`index.ts:3706-3713`). -/
def nodeSamples : List String :=
  ["cpu", "memory", "relayMemory", "relayResources", "storage", "uptimeSeconds"]

/-- `relayNodeControlState` (`index.ts:3705-3716`). -/
def relayNodeControlState (node : RelayNode) : JsonValue :=
  .object (node.filter (·.1 ∉ nodeSamples))

/-- The part of a node that is compared. -/
def comparedNode (nodeResources : Bool) (node : RelayNode) : JsonValue :=
  if nodeResources then .object node else relayNodeControlState node

/-- `jsonValueEqual` of the relay descriptions, of which either can be absent. -/
def relayEqual : Option JsonObject → Option JsonObject → Bool
  | none, none => true
  | some left, some right => jsonValueEqual (.object left) (.object right)
  | _, _ => false

namespace RelaySnapshot

def ids (snapshot : RelaySnapshot) : List String := snapshot.instances.map (·.id)

end RelaySnapshot

/-- The instances by ID, as the `Map` made of them holds them. -/
def instancesById (instances : List RelayInstance) : OrderedMap String RelayInstance :=
  .ofEntries (instances.map fun inst => (inst.id, inst))

/-- An instance is new, or its control state changed. -/
def changed (previousInstances : OrderedMap String RelayInstance) (inst : RelayInstance) : Bool :=
  match previousInstances.get inst.id with
  | none => true
  | some previousInstance =>
      !jsonValueEqual (relayInstanceControlState previousInstance) (relayInstanceControlState inst)

/-- What changed from one snapshot to the next (`index.ts:3598-3626`). -/
def snapshotChanges (previous next : RelaySnapshot) (nodeResources : Bool) :
    RelaySnapshotDelta :=
  let previousInstances := instancesById previous.instances
  { deletedInstanceIds := previous.ids.filter (· ∉ next.ids)
    instances := next.instances.filter (changed previousInstances)
    node :=
      if jsonValueEqual (comparedNode nodeResources previous.node) (comparedNode nodeResources next.node) then none
      else some next.node
    relay := if relayEqual previous.relay next.relay then none else next.relay }

def RelaySnapshotDelta.isEmpty (delta : RelaySnapshotDelta) : Bool :=
  delta.instances.isEmpty && delta.deletedInstanceIds.isEmpty && delta.node.isNone && delta.relay.isNone

/-- `createRelaySnapshotDelta` (`index.ts:3593-3642`). -/
def createRelaySnapshotDelta (previous next : RelaySnapshot) (nodeResources : Bool) :
    Option RelaySnapshotDelta :=
  let delta := snapshotChanges previous next nodeResources
  if delta.isEmpty then none else some delta

/-- The walk of `applyRelaySnapshotDelta` over the copy's instances: those that stay, and the upserts that are left
(`index.ts:3660-3665`). -/
def retain (deleted : List String) :
    List RelayInstance → OrderedMap String RelayInstance → List RelayInstance × OrderedMap String RelayInstance
  | [], upserts => ([], upserts)
  | inst :: rest, upserts =>
      if inst.id ∈ deleted then retain deleted rest upserts
      else
        match upserts.get inst.id with
        | some updated =>
            let (retained, left) := retain deleted rest (upserts.delete inst.id)
            (updated :: retained, left)
        | none =>
            let (retained, left) := retain deleted rest upserts
            (inst :: retained, left)

/-- `applyRelaySnapshotDelta` (`index.ts:3644-3672`). -/
def applyRelaySnapshotDelta (snapshot : RelaySnapshot) (delta : RelaySnapshotDelta) :
    RelaySnapshot :=
  let node := delta.node.getD snapshot.node
  let relay := delta.relay.or snapshot.relay
  if delta.instances.isEmpty && delta.deletedInstanceIds.isEmpty then
    { snapshot with node := node, relay := relay }
  else
    let (retained, left) :=
      retain delta.deletedInstanceIds snapshot.instances (instancesById delta.instances)
    { instances := retained ++ left.entries.map Prod.snd, node := node, relay := relay }

/-- What a session sends as its snapshot changes, applied to a copy (`control-socket.ts:1396-1428`). -/
def followOne (nodeResources : Bool) (previous next copy : RelaySnapshot) : RelaySnapshot :=
  match createRelaySnapshotDelta previous next nodeResources with
  | some delta => applyRelaySnapshotDelta copy delta
  | none => copy

/-- What a session's snapshots bring Hearth's copy to, from the one before. -/
def follow (nodeResources : Bool) : RelaySnapshot → RelaySnapshot → List RelaySnapshot → RelaySnapshot
  | _, copy, [] => copy
  | previous, copy, next :: rest =>
      follow nodeResources next (followOne nodeResources previous next copy) rest

end Kiln.Contracts
