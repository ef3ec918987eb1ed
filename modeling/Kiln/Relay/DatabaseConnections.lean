import Kiln.Lib.OrderedMap
import Kiln.Lib.Transition

/-!
# Database connections and who chose them

The tables `relay_database_connections` and `relay_database_connection_choices` of
`apps/relay/src/effect/state.ts`, and the transactions that change them (2495-2621). A person
connects or disconnects a pair of a database and one of its members, which is noted as a choice;
a handover of a Hearth's old connections imports some, and a Relay's first start recovers those
its containers had.

A transaction that throws changes nothing, which is `none`.
-/

namespace Kiln.Relay
open Kiln.Lib

/-- `DatabaseConnectionMemberKind`. -/
inductive DatabaseMemberKind where
  | instance'
  | app
  | database
  deriving DecidableEq, Repr

/-- `DatabaseConnectionMember`. -/
structure DatabaseMember where
  kind : DatabaseMemberKind
  id : String
  deriving DecidableEq, Repr

/-- A database and one of its members, the key of both tables. -/
structure DatabasePair where
  member : DatabaseMember
  databaseId : String
  deriving DecidableEq, Repr

/-- `RelayStoredDatabaseConnection`. -/
structure StoredDatabaseConnection where
  pair : DatabasePair
  relayId : String
  deriving DecidableEq, Repr

/-- The tables, and whether `DATABASE_CONNECTION_RECOVERY_KEY` is set. -/
structure ConnectionTables where
  connections : OrderedMap DatabasePair String := .empty
  choices : OrderedMap DatabasePair Unit := .empty
  recovered : Bool := false
  deriving DecidableEq

/-- The table's check: no database is connected to itself (`state.ts:1662`). -/
def DatabasePair.valid (pair : DatabasePair) : Bool :=
  !(pair.member.kind = .database && pair.member.id = pair.databaseId)

/-- What a deletion of a database takes with it, as a database or as a member. -/
def DatabasePair.involves (pair : DatabasePair) (databaseId : String) : Bool :=
  pair.databaseId = databaseId ||
    (pair.member.kind = .database && pair.member.id = databaseId)

namespace ConnectionTables

/-- `setDatabaseConnection` (`state.ts:2495-2529`). A disconnection names the Relay too. -/
def setConnection (tables : ConnectionTables) (connection : StoredDatabaseConnection)
    (connected : Bool) : Option ConnectionTables :=
  let pair := connection.pair
  let choices := tables.choices.insertNew pair ()
  if connected then
    if pair.valid then
      some { tables with
        connections := tables.connections.set pair connection.relayId, choices }
    else none
  else
    some { tables with
      connections := tables.connections.filter fun key relayId =>
        !(key = pair && relayId = connection.relayId)
      choices }

/-- `recoverDatabaseConnections` (`state.ts:2530-2557`). -/
def recover (tables : ConnectionTables) (connections : List StoredDatabaseConnection) :
    Option ConnectionTables :=
  if tables.recovered then some tables
  else if connections.all (·.pair.valid) then
    some { tables with
      connections := connections.foldl (fun saved connection => saved.insertNew connection.pair connection.relayId)
        tables.connections
      recovered := true }
  else none

/-- One turn of the loop of an import, which counts what it adds. -/
def importOne (choices : OrderedMap DatabasePair Unit)
    (state : OrderedMap DatabasePair String × Nat) (connection : StoredDatabaseConnection) :
    Option (OrderedMap DatabasePair String × Nat) :=
  -- a pair someone chose since stays as they left it
  if choices.has connection.pair then some state
  else if !connection.pair.valid then none
  else if state.1.has connection.pair then some state
  else some (state.1.set connection.pair connection.relayId, state.2 + 1)

/-- `importDatabaseConnections` (`state.ts:2558-2586`). -/
def importConnections (tables : ConnectionTables) (connections : List StoredDatabaseConnection) :
    Option (ConnectionTables × Nat) :=
  (connections.foldlM (importOne tables.choices) (tables.connections, 0)).map fun state =>
    ({ tables with connections := state.1 }, state.2)

/-- `deleteMemberDatabaseConnections` (`state.ts:2587-2603`). -/
def deleteMember (tables : ConnectionTables) (member : DatabaseMember) : ConnectionTables :=
  { tables with
    connections := tables.connections.filter fun key _ => key.member ≠ member
    choices := tables.choices.filter fun key _ => key.member ≠ member }

/-- `deleteDatabaseConnections` (`state.ts:2604-2621`). -/
def deleteDatabase (tables : ConnectionTables) (relayId databaseId : String) :
    ConnectionTables :=
  { tables with
    connections := tables.connections.filter fun key saved =>
      !((saved = relayId && key.databaseId = databaseId) ||
        (key.member.kind = .database && key.member.id = databaseId))
    choices := tables.choices.filter fun key _ => !key.involves databaseId }

end ConnectionTables

/-- One transaction. -/
inductive ConnectionEvent where
  | set (connection : StoredDatabaseConnection) (connected : Bool)
  | importConnections (connections : List StoredDatabaseConnection)
  | recover (connections : List StoredDatabaseConnection)
  | deleteMember (member : DatabaseMember)
  | deleteDatabase (relayId databaseId : String)
  deriving DecidableEq, Repr

/-- What a transaction leaves. -/
def ConnectionTables.next (tables : ConnectionTables) : ConnectionEvent → Option ConnectionTables
  | .set connection connected => tables.setConnection connection connected
  | .importConnections connections => (tables.importConnections connections).map (·.1)
  | .recover connections => tables.recover connections
  | .deleteMember member => some (tables.deleteMember member)
  | .deleteDatabase relayId databaseId => some (tables.deleteDatabase relayId databaseId)

/-- A Relay's connections, from before anyone chose any. -/
def connectionSystem : System ConnectionTables ConnectionEvent :=
  .ofFunction (·.choices = .empty) ConnectionTables.next

/-! ## What was chosen last -/

/-- What an event makes of the choice for a pair: the Relay it was connected on, or none where it was disconnected. A
deletion of the database or of the member takes a choice with it. -/
def ConnectionEvent.chooses (pair : DatabasePair) (chosen : Option (Option String)) :
    ConnectionEvent → Option (Option String)
  | .set connection connected =>
      if connection.pair = pair then some (if connected then some connection.relayId else none)
      else chosen
  | .importConnections _ | .recover _ => chosen
  | .deleteMember member => if pair.member = member then none else chosen
  | .deleteDatabase _ databaseId => if pair.involves databaseId then none else chosen

/-- The last choice for a pair since its database or its member was deleted. -/
def lastChoice (pair : DatabasePair) (events : List ConnectionEvent) : Option (Option String) :=
  events.foldl (ConnectionEvent.chooses pair) none

theorem lastChoice_snoc (pair : DatabasePair) (events : List ConnectionEvent) (event : ConnectionEvent) :
    lastChoice pair (events ++ [event]) = event.chooses pair (lastChoice pair events) := by
  rw [lastChoice, List.foldl_append, List.foldl_cons, List.foldl_nil, lastChoice]

/-- A choice stands: its pair is noted, and is connected as was chosen. Without one, its pair is not noted. -/
def ConnectionTables.Stands (tables : ConnectionTables) (pair : DatabasePair) : Option (Option String) → Prop
  | none => tables.choices.get pair = none
  | some chosen => tables.choices.get pair = some () ∧ tables.connections.get pair = chosen

/-- The first recovery lists no pair someone disconnected, and a disconnection names the Relay the saved connection is
on. -/
def ConnectionTables.Minds (tables : ConnectionTables) : ConnectionEvent → Prop
  | .set connection connected =>
      connected = false → ∀ relayId, tables.connections.get connection.pair = some relayId →
        relayId = connection.relayId
  | .recover connections =>
      tables.recovered = false → ∀ connection ∈ connections, tables.choices.get connection.pair = some () →
          tables.connections.get connection.pair ≠ none
  | _ => True

end Kiln.Relay
