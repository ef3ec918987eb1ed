import Kiln.Contracts.Schedules
import Kiln.Lib.OrderedMap

/-!
# The schedules a Relay keeps

The tables `relay_schedules` and `relay_schedule_tombstones` of
`apps/relay/src/effect/schedule-state.ts`, and what Hearth's two messages about a schedule make of
them. Each is one transaction; one that throws is `none`.
-/

namespace Kiln.Relay
open Kiln.Lib Kiln.Contracts

/-- A `definition_json`, as what reading it gives: a schedule, JSON that is none any longer, or no JSON at all. -/
inductive StoredDefinition where
  | projection (definition : RelayScheduleProjection)
  | json (generation : Option Nat)
  | text
  deriving DecidableEq, Repr

/-- `readDefinition` (`schedule-state.ts:81-82`). -/
def StoredDefinition.read : StoredDefinition → Option RelayScheduleProjection
  | .projection definition => some definition
  | .json _ | .text => none

/-- A row of `relay_schedules`, under its `schedule_id`. -/
structure ScheduleRow where
  revision : Nat
  enabled : Bool
  nextRunAt : Option Nat
  definition : StoredDefinition
  deriving DecidableEq, Repr

/-- `storedGeneration` (`schedule-state.ts:74-79`), which throws on what isn't JSON. -/
def storedGeneration (row : ScheduleRow) : Option (Option Nat) :=
  match row.definition with
  | .projection definition => some definition.generation
  | .json generation => some generation
  | .text => none

/-- `RelayScheduleDeployment` (`schedules.ts:462-470`). -/
structure RelayScheduleDeployment where
  acknowledgedGeneration : Option Nat := none
  acknowledgedRevision : Nat
  nextRunAt : Option Nat
  scheduleId : String
  deriving DecidableEq, Repr

/-- The tables of deployed and of removed schedules. -/
structure ScheduleTables where
  schedules : OrderedMap String ScheduleRow := .empty
  tombstones : OrderedMap String Nat := .empty
  deriving DecidableEq

namespace ScheduleTables

/-- `apply` (`schedule-state.ts:225-266`). -/
def apply (tables : ScheduleTables) (definition : RelayScheduleProjection)
    (nextRunAt : Option Nat) : Option (ScheduleTables × RelayScheduleDeployment) :=
  let id := definition.id
  let write : ScheduleTables × RelayScheduleDeployment :=
    ({ schedules := tables.schedules.set id ⟨definition.revision, definition.enabled, nextRunAt, .projection definition⟩
       tombstones := tables.tombstones.delete id },
      ⟨definition.generation, definition.revision, nextRunAt, id⟩)
  match (tables.tombstones.get id).filter (definition.revision ≤ ·) with
  | some deleted => some (tables, ⟨none, deleted, none, id⟩)
  | none =>
      match tables.schedules.get id with
      | none => some write
      | some current =>
          if definition.revision ≤ current.revision then do
            -- the generation is read where the revisions are equal, or for the reply
            let generation ← storedGeneration current
            if definition.revision < current.revision ||
                definition.generation.getD 0 < generation.getD 0 then
              some (tables, ⟨generation, current.revision, current.nextRunAt, id⟩)
            else some write
          else some write

/-- `remove` (`schedule-state.ts:267-292`). -/
def remove (tables : ScheduleTables) (scheduleId : String) (revision : Nat) :
    ScheduleTables × RelayScheduleDeployment :=
  match (tables.schedules.get scheduleId).filter (revision < ·.revision) with
  | some current => (tables, ⟨none, current.revision, current.nextRunAt, scheduleId⟩)
  | none =>
      let revision := max revision ((tables.tombstones.get scheduleId).getD 0)
      ({ schedules := tables.schedules.delete scheduleId
         tombstones := tables.tombstones.set scheduleId revision },
        ⟨none, revision, none, scheduleId⟩)

end ScheduleTables

end Kiln.Relay
