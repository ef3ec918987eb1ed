import Kiln.Contracts.PortAllocations
import Kiln.Lib.OrderedMap

/-!
# An instance's ports as its container keeps them

apps/relay/src/port-allocations.ts: ports are written to a container's labels and its published bindings, and read back
from them. What JSON a text is, what number, and how texts are ordered is told by the platform.
-/

namespace Kiln.Relay
open Kiln.Lib Kiln.Lib.JsonText Kiln.Contracts

/-- How texts are read. A text that holds other numbers than naturals counts as none, as no schema here takes one. -/
structure TextReading where
  /-- `Number`, where it's a natural number. -/
  number : Utf16 → Option Nat
  decodeJsonOption : Utf16 → Option JsonTree
  localeCompare : Utf16 → Utf16 → Int

/-! ## Labels and bindings -/

/-- `INSTANCE_CUSTOM_ROUTE_LABEL_PREFIX` -/
def instanceCustomRouteLabelStart : Utf16 := .ofString "kiln.instance.custom-routes."

/-- `PRIMARY_PORT_LABEL` -/
def primaryPortLabel : Utf16 := .ofString "kiln.brick.primary-port"

/-- `LEGACY_INSTANCE_PORT_ALLOCATIONS_LABEL` -/
def legacyInstancePortAllocationsLabel : Utf16 := .ofString "kiln.instance.ports"

/-- `LEGACY_PRIMARY_PORT_PROTOCOL_LABEL` -/
def legacyPrimaryPortProtocolLabel : Utf16 := .ofString "kiln.brick.primary-port-protocol"

structure PortBinding where
  hostIp : Option Utf16 := none
  hostPort : Option Utf16
  deriving DecidableEq

abbrev PortBindings := OrderedMap Utf16 (Option (List PortBinding))

structure RecoverablePortMetadata extends RelayInstancePortMetadata where
  labelledPublicPort : Option Nat := none
  deriving DecidableEq

def customRouteLabel (allocation : RelayInstancePortAllocation) : RelayInstanceCustomRouteLabel where
  internal := allocation.internalPort
  name := allocation.name
  protocol := allocation.protocol
  public_ := allocation.externalPort

def routeJson (route : RelayInstanceCustomRouteLabel) : JsonTree :=
  .object [("internal", .atom (.number route.internal)), ("name", string route.name),
    ("protocol", word route.protocol.name), ("public", .atom (.number route.public_))]

/-- A container's label for a port that isn't the primary. -/
def routeEntry (allocation : RelayInstancePortAllocation) : Utf16 × Utf16 :=
  (instanceCustomRouteLabelStart ++ allocation.id, stringify (routeJson (customRouteLabel allocation)))

/-- `/tcp`, `/udp` -/
def protocolPart (protocol : RelayInstancePortProtocol) : Utf16 := .ofString "/" ++ .ofString protocol.name

def primaryPortText (primary : RelayInstancePortAllocation) : Utf16 :=
  if primary.protocol = .both then .decimal primary.internalPort
  else .decimal primary.internalPort ++ protocolPart primary.protocol

/-- `portAllocationContainerLabels`, which throws without a primary port. -/
def portAllocationContainerLabels (allocations : List RelayInstancePortAllocation) : Option (OrderedMap Utf16 Utf16) := do
  let primary ← allocations.find? fun allocation => allocation.kind = .primary
  return .ofEntries ((primaryPortLabel, primaryPortText primary) ::
    (allocations.filter fun allocation => allocation.kind ≠ .primary).map routeEntry)

def isManagedPortLabel (label : Utf16) : Bool :=
  label = primaryPortLabel || label = legacyInstancePortAllocationsLabel || label = legacyPrimaryPortProtocolLabel ||
    instanceCustomRouteLabelStart.isPrefixOf label

/-- `sortedEntries`, as they are compared. -/
def sortedEntries (reading : TextReading) (labels : OrderedMap Utf16 Utf16) : Utf16 :=
  let sorted := labels.entries.mergeSort fun left right => reading.localeCompare left.1 right.1 ≤ 0
  stringify (.array (sorted.map fun entry => .array [string entry.1, string entry.2]))

def portLabelsRequireRestart (reading : TextReading) (current desired : OrderedMap Utf16 Utf16) : Bool :=
  let currentManaged := OrderedMap.ofEntries (current.entries.filter fun entry => isManagedPortLabel entry.1)
  sortedEntries reading currentManaged ≠ sortedEntries reading desired

def bindingKey (internalPort : Nat) (protocol : RelayInstancePortProtocol) : Utf16 :=
  .decimal internalPort ++ protocolPart protocol

def dockerPortBindingsForAllocations (allocations : List RelayInstancePortAllocation) : OrderedMap Utf16 (List PortBinding) :=
  .ofEntries (allocations.flatMap fun allocation => (portProtocols allocation.protocol).map fun protocol =>
    (bindingKey allocation.internalPort protocol,
      [{ hostIp := some [], hostPort := some (.decimal allocation.externalPort) }]))

/-! ## Reading them back -/

def bindingAt (bindings : Option PortBindings) (key : Utf16) : Option (List PortBinding) :=
  (bindings.bind (·.get key)).join

def bindingPublicPort (reading : TextReading) (candidates : Option (List PortBinding)) : Option Nat := do
  let candidates ← candidates
  (candidates.filterMap fun candidate => candidate.hostPort.bind reading.number).find? fun candidate =>
    1 ≤ candidate ∧ candidate ≤ 65535

def discoverPublishedPort (reading : TextReading) (bindings : Option PortBindings) (internalPort : Nat)
    (protocol : RelayInstancePortProtocol) : Option Nat :=
  let published := (portProtocols protocol).map fun candidate =>
    bindingPublicPort reading (bindingAt bindings (bindingKey internalPort candidate))
  if published.any (·.isNone) then none
  else
    match published.head?.join with
    | some first => if first ≠ 0 ∧ published.all (· = some first) then some first else none
    | none => none

/-- What `/^(\d{1,5})(?:\/(tcp|udp))?$/u` matches of a label. -/
def matchPrimaryPort (label : Utf16) : Option (Utf16 × Option RelayInstancePortProtocol) :=
  let digits := label.takeWhile Utf16.isDigit
  let rest := label.dropWhile Utf16.isDigit
  if 1 ≤ digits.length ∧ digits.length ≤ 5 then
    if rest = [] then some (digits, none)
    else if rest = protocolPart .tcp then some (digits, some .tcp)
    else if rest = protocolPart .udp then some (digits, some .udp)
    else none
  else none

def parsePrimaryPortLabel (reading : TextReading) (label legacyProtocolLabel : Option Utf16) :
    Option RecoverablePortMetadata := do
  let (digits, protocol) ← label.bind matchPrimaryPort
  let internalPort ← reading.number digits
  if internalPort < 1 ∨ 65535 < internalPort then none
  else
    let legacy : RelayInstancePortProtocol :=
      if legacyProtocolLabel = some (.ofString "tcp") then .tcp
      else if legacyProtocolLabel = some (.ofString "udp") then .udp
      else .both
    some { id := primaryId, internalPort, kind := .primary, name := .ofString "Default Server"
           protocol := protocol.getD legacy }

def parseLegacyPortMetadata (reading : TextReading) : Option Utf16 → List RecoverablePortMetadata
  | none | some [] => []
  | some label =>
      ((reading.decodeJsonOption label).bind relayInstancePortMetadataListSchema).getD []
        |>.map fun metadata => { metadata with }

/-- The kind of a port that isn't the primary. -/
def routeKind (id : Utf16) : RelayInstancePortKind := if brickStart.isPrefixOf id then .brick else .custom

/-- The port a label stands for. -/
def parseRoute (reading : TextReading) (entry : Utf16 × Option Utf16) : List RecoverablePortMetadata :=
  let id := entry.1.drop instanceCustomRouteLabelStart.length
  if isPortId id = false ∨ id = primaryId then []
  else
    match entry.2 with
    | none => []
    | some value =>
        match (reading.decodeJsonOption value).bind relayInstanceCustomRouteLabelSchema with
        | none => []
        | some route =>
            [{ id, internalPort := route.internal, kind := routeKind id, name := route.name, protocol := route.protocol
               labelledPublicPort := some route.public_ }]

def recoverablePortMetadata (reading : TextReading) (labels : OrderedMap Utf16 (Option Utf16)) :
    List RecoverablePortMetadata :=
  let legacy := parseLegacyPortMetadata reading (labels.get legacyInstancePortAllocationsLabel).join
  if 0 < legacy.length ∧ (labels.get legacyPrimaryPortProtocolLabel).join ≠ none then legacy
  else
    let primary := parsePrimaryPortLabel reading (labels.get primaryPortLabel).join
      (labels.get legacyPrimaryPortProtocolLabel).join
    let routes := (labels.entries.filter fun entry => instanceCustomRouteLabelStart.isPrefixOf entry.1).flatMap
      (parseRoute reading)
    if primary.isSome ∨ 0 < routes.length then primary.toList ++ routes else legacy

/-- The comparison ports are sorted by. -/
def comparePorts (reading : TextReading) (left right : RelayInstancePortAllocation) : Int :=
  if left.kind = .primary then -1
  else if right.kind = .primary then 1
  else reading.localeCompare left.id right.id

/-- A port with the public port that's found for it. -/
def discoverPort (reading : TextReading) (bindings : Option PortBindings) (allocation : RecoverablePortMetadata) :
    List RelayInstancePortAllocation :=
  match (discoverPublishedPort reading bindings allocation.internalPort allocation.protocol).or
      allocation.labelledPublicPort with
  | none | some 0 => []
  | some externalPort => [{ allocation.toRelayInstancePortMetadata with externalPort }]

def discoverPortAllocations (reading : TextReading) (bindings : Option PortBindings)
    (labels : OrderedMap Utf16 (Option Utf16)) : List RelayInstancePortAllocation :=
  ((recoverablePortMetadata reading labels).flatMap (discoverPort reading bindings)).mergeSort
    fun left right => comparePorts reading left right ≤ 0

end Kiln.Relay
