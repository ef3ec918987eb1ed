import Kiln.Lib.JsonText
import Kiln.Lib.Partial

/-!
# Port allocations

The schemas of packages/contracts/src/index.ts for an instance's ports: single ports, and lists of them with an id and a
binding for each.
-/

namespace Kiln.Contracts
open Kiln.Lib Kiln.Lib.JsonText

inductive RelayInstancePortProtocol where
  | tcp
  | udp
  | both
  deriving DecidableEq

inductive RelayInstancePortKind where
  | primary
  | brick
  | custom
  deriving DecidableEq

structure RelayInstancePortMetadata where
  id : Utf16
  internalPort : Nat
  kind : RelayInstancePortKind
  name : Utf16
  protocol : RelayInstancePortProtocol
  deriving DecidableEq

structure RelayInstancePortAllocation extends RelayInstancePortMetadata where
  externalPort : Nat
  deriving DecidableEq

structure RelayInstanceCustomRouteLabel where
  internal : Nat
  name : Utf16
  protocol : RelayInstancePortProtocol
  public_ : Nat
  deriving DecidableEq

/-! ## Fields -/

/-- A whole number that a port may have. -/
def portNumber : JsonTree → Option Nat
  | .atom (.number port) => if 1 ≤ port ∧ port ≤ 65535 then some port else none
  | _ => none

def relayInstancePortNameSchema : JsonTree → Option Utf16
  | .atom (.string text) => if 1 ≤ (Utf16.trim text).length ∧ (Utf16.trim text).length ≤ 32 then some (Utf16.trim text) else none
  | _ => none

def RelayInstancePortProtocol.name : RelayInstancePortProtocol → String
  | .tcp => "tcp"
  | .udp => "udp"
  | .both => "both"

def relayInstancePortProtocolSchema : JsonTree → Option RelayInstancePortProtocol
  | .atom (.string text) =>
      [.tcp, .udp, .both].find? fun (protocol : RelayInstancePortProtocol) => text = .ofString protocol.name
  | _ => none

def RelayInstancePortKind.name : RelayInstancePortKind → String
  | .primary => "primary"
  | .brick => "brick"
  | .custom => "custom"

def portKindSchema : JsonTree → Option RelayInstancePortKind
  | .atom (.string text) =>
      [.primary, .brick, .custom].find? fun (kind : RelayInstancePortKind) => text = .ofString kind.name
  | _ => none

def isLowerOrDigit (unit : UInt16) : Bool :=
  0x61 ≤ unit.toNat && unit.toNat ≤ 0x7A || 0x30 ≤ unit.toNat && unit.toNat ≤ 0x39

def isHex (unit : UInt16) : Bool :=
  0x61 ≤ unit.toNat && unit.toNat ≤ 0x66 || 0x30 ≤ unit.toNat && unit.toNat ≤ 0x39

def primaryId : Utf16 := .ofString "primary"

def brickStart : Utf16 := .ofString "brick-"

/-- `relayInstancePortIdSchema` of a text -/
def isPortId (text : Utf16) : Bool :=
  text = primaryId ||
    (brickStart.isPrefixOf text &&
      match text.drop brickStart.length with
      | first :: rest => isLowerOrDigit first && rest.length ≤ 31 && rest.all fun unit => isLowerOrDigit unit || unit = 0x2D
      | [] => false) ||
    (text.length = 8 && text.all isHex)

def relayInstancePortIdSchema : JsonTree → Option Utf16
  | .atom (.string text) => if isPortId text then some text else none
  | _ => none

/-! ## Ports -/

/-- The fields of an object with no others than these. -/
def strict (names : List String) : JsonTree → Option (List (String × JsonTree))
  | .object fields => if fields.all fun field => names.contains field.1 then some fields else none
  | _ => none

def required {α : Type} (fields : List (String × JsonTree)) (name : String) (schema : JsonTree → Option α) : Option α :=
  (Json.field name fields).bind schema

/-- What both port schemas read of an object's fields. -/
def portMetadata (fields : List (String × JsonTree)) : Option RelayInstancePortMetadata := do
  let internalPort ← required fields "internalPort" portNumber
  let name ← required fields "name" relayInstancePortNameSchema
  let protocol ← required fields "protocol" relayInstancePortProtocolSchema
  let id ← required fields "id" relayInstancePortIdSchema
  let kind ← required fields "kind" portKindSchema
  return { id, internalPort, kind, name, protocol }

def relayInstancePortMetadataSchema (value : JsonTree) : Option RelayInstancePortMetadata := do
  portMetadata (← strict ["internalPort", "name", "protocol", "id", "kind"] value)

def relayInstancePortAllocationSchema (value : JsonTree) : Option RelayInstancePortAllocation := do
  let fields ← strict ["internalPort", "name", "protocol", "id", "kind", "externalPort"] value
  let metadata ← portMetadata fields
  let externalPort ← required fields "externalPort" portNumber
  return { metadata with externalPort }

def relayInstanceCustomRouteLabelSchema (value : JsonTree) : Option RelayInstanceCustomRouteLabel := do
  let fields ← strict ["internal", "name", "protocol", "public"] value
  let internal ← required fields "internal" portNumber
  let name ← required fields "name" relayInstancePortNameSchema
  let protocol ← required fields "protocol" relayInstancePortProtocolSchema
  let public_ ← required fields "public" portNumber
  return { internal, name, protocol, public_ }

/-! ## Lists of ports -/

/-- `portProtocols` -/
def portProtocols : RelayInstancePortProtocol → List RelayInstancePortProtocol
  | .both => [.tcp, .udp]
  | protocol => [protocol]

/-- No id and no binding is there twice. -/
def UniquePorts (ports : List RelayInstancePortMetadata) : Prop :=
  (ports.map (·.id)).Nodup ∧
    (ports.flatMap fun port => (portProtocols port.protocol).map fun protocol => (protocol, port.internalPort)).Nodup

instance (ports : List RelayInstancePortMetadata) : Decidable (UniquePorts ports) :=
  inferInstanceAs (Decidable (_ ∧ _))

def relayInstancePortArraySchema {α : Type} (port : JsonTree → Option α) (metadata : α → RelayInstancePortMetadata) :
    JsonTree → Option (List α)
  | .array items => do
      let ports ← items.mapM port
      if 1 ≤ ports.length ∧ ports.length ≤ 16 ∧ UniquePorts (ports.map metadata) then some ports else none
  | _ => none

def relayInstancePortMetadataListSchema : JsonTree → Option (List RelayInstancePortMetadata) :=
  relayInstancePortArraySchema relayInstancePortMetadataSchema id

def relayInstancePortAllocationsSchema : JsonTree → Option (List RelayInstancePortAllocation) :=
  relayInstancePortArraySchema relayInstancePortAllocationSchema (·.toRelayInstancePortMetadata)

/-! ## What parsed ports have -/

/-- A port as the schema gives it back. -/
structure ValidPort (port : RelayInstancePortAllocation) : Prop where
  id : isPortId port.id = true
  internal : 1 ≤ port.internalPort ∧ port.internalPort ≤ 65535
  external : 1 ≤ port.externalPort ∧ port.externalPort ≤ 65535
  trimmed : Utf16.trim port.name = port.name
  name : 1 ≤ port.name.length ∧ port.name.length ≤ 32

variable {value : JsonTree}

theorem portNumber_range {port : Nat} (is : portNumber value = some port) : 1 ≤ port ∧ port ≤ 65535 := by
  unfold portNumber at is
  split at is
  · obtain ⟨range, same⟩ := Option.ite_none_right_eq_some.mp is
    exact Option.some.inj same ▸ range
  · cases is

theorem portName_trimmed {name : Utf16} (is : relayInstancePortNameSchema value = some name) :
    Utf16.trim name = name ∧ 1 ≤ name.length ∧ name.length ≤ 32 := by
  unfold relayInstancePortNameSchema at is
  split at is
  · obtain ⟨range, same⟩ := Option.ite_none_right_eq_some.mp is
    cases same
    exact ⟨Utf16.trim_trim _, range⟩
  · cases is

theorem portId_isPortId {id : Utf16} (is : relayInstancePortIdSchema value = some id) : isPortId id = true := by
  unfold relayInstancePortIdSchema at is
  split at is
  · obtain ⟨valid, same⟩ := Option.ite_none_right_eq_some.mp is
    exact Option.some.inj same ▸ valid
  · cases is

theorem required_eq_some {α : Type} {fields : List (String × JsonTree)} {name : String} {schema : JsonTree → Option α}
    {a : α} (is : required fields name schema = some a) : ∃ value, schema value = some a := by
  obtain ⟨value, -, read⟩ := Option.bind_eq_some_iff.mp is
  exact ⟨value, read⟩

theorem validPort_of_parse {port : RelayInstancePortAllocation}
    (is : relayInstancePortAllocationSchema value = some port) : ValidPort port := by
  simp only [relayInstancePortAllocationSchema, portMetadata, Option.bind_eq_bind, Option.bind_eq_some_iff,
    Option.pure_def, Option.some.injEq] at is
  obtain ⟨fields, -, metadata, ⟨internalPort, internal, name, named, protocol, -, id, identified, kind, -, rfl⟩,
    externalPort, external, rfl⟩ := is
  obtain ⟨_, internal⟩ := required_eq_some internal
  obtain ⟨_, named⟩ := required_eq_some named
  obtain ⟨_, identified⟩ := required_eq_some identified
  obtain ⟨_, external⟩ := required_eq_some external
  have trimmed := portName_trimmed named
  exact ⟨portId_isPortId identified, portNumber_range internal, portNumber_range external, trimmed.1, trimmed.2⟩

theorem valid_of_parse {input : JsonTree} {ports : List RelayInstancePortAllocation}
    (parsed : relayInstancePortAllocationsSchema input = some ports) :
    (∀ port ∈ ports, ValidPort port) ∧ UniquePorts (ports.map (·.toRelayInstancePortMetadata)) := by
  unfold relayInstancePortAllocationsSchema relayInstancePortArraySchema at parsed
  split at parsed
  · rename_i items
    obtain ⟨ports', read, checked⟩ := Option.bind_eq_some_iff.mp parsed
    obtain ⟨⟨-, -, unique⟩, same⟩ := Option.ite_none_right_eq_some.mp checked
    cases same
    refine ⟨fun port member => ?_, unique⟩
    obtain ⟨item, -, is⟩ := (mem_of_mapM read).mp member
    exact validPort_of_parse is
  · cases parsed

end Kiln.Contracts
