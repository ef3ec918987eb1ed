import Kiln.Relay.ScheduleState
import Kiln.Lib.Register
import Kiln.Lib.Transition

/-!
# Schedules are deployed whatever the order

Hearth's messages about a schedule may come late, again and in any order. For each schedule the
tables are a register of them: they hold the highest, by revision, then a removal over any
definition, then by generation.
-/

namespace Kiln.Relay
open Kiln.Lib Kiln.Contracts

/-- What Hearth says of a schedule. -/
inductive ScheduleMessage where
  | apply (definition : RelayScheduleProjection)
  | remove (scheduleId : String) (revision : Nat)
  deriving DecidableEq, Repr

namespace ScheduleMessage

def scheduleId : ScheduleMessage → String
  | .apply definition => definition.id
  | .remove scheduleId _ => scheduleId

def revision : ScheduleMessage → Nat
  | .apply definition => definition.revision
  | .remove _ revision => revision

/-- What a message ranks by where revisions are equal: a definition by its generation, of which none is 0, and a removal
over any definition. -/
def height : ScheduleMessage → WithTop ℕ
  | .apply definition => WithTop.some (definition.generation.getD 0)
  | .remove .. => ⊤

/-- Messages rank by revision first. -/
def rank (message : ScheduleMessage) : ℕ ×ₗ WithTop ℕ := toLex (message.revision, message.height)

theorem rank_le_iff {first second : ScheduleMessage} : first.rank ≤ second.rank ↔
    first.revision < second.revision ∨
      first.revision = second.revision ∧ first.height ≤ second.height :=
  Prod.Lex.toLex_le_toLex

theorem rank_lt_iff {first second : ScheduleMessage} : first.rank < second.rank ↔
    first.revision < second.revision ∨
      first.revision = second.revision ∧ first.height < second.height :=
  Prod.Lex.toLex_lt_toLex

end ScheduleMessage

/-- A message as it is delivered. A definition's `nextRunAt` is worked out when it comes (`schedules.ts:194-206`). -/
structure ScheduleDelivery where
  message : ScheduleMessage
  nextRunAt : Option Nat := none
  deriving DecidableEq, Repr

/-- What a delivery leaves of the tables, and what is acknowledged. -/
def ScheduleTables.deliver (tables : ScheduleTables) (delivery : ScheduleDelivery) :
    Option (ScheduleTables × RelayScheduleDeployment) :=
  match delivery.message with
  | .apply definition => tables.apply definition delivery.nextRunAt
  | .remove scheduleId revision => some (tables.remove scheduleId revision)

/-- A Relay's schedules, from before any was deployed. -/
def scheduleSystem : System ScheduleTables ScheduleDelivery :=
  .ofFunction (· = {}) fun tables delivery => (tables.deliver delivery).map (·.1)

/-- The tables hold a message about a schedule, or none was taken. -/
def ScheduleTables.Holds (tables : ScheduleTables) (scheduleId : String) : Option ScheduleMessage → Prop
  | none => tables.schedules.get scheduleId = none ∧ tables.tombstones.get scheduleId = none
  | some (.apply definition) =>
      definition.id = scheduleId ∧ tables.tombstones.get scheduleId = none ∧
        ∃ nextRunAt, tables.schedules.get scheduleId =
          some ⟨definition.revision, definition.enabled, nextRunAt, .projection definition⟩
  | some (.remove id revision) =>
      id = scheduleId ∧ tables.schedules.get scheduleId = none ∧ tables.tombstones.get scheduleId = some revision

variable {tables after : ScheduleTables} {scheduleId : String} {held : Option ScheduleMessage}
  {delivery : ScheduleDelivery} {deployment : RelayScheduleDeployment}

/-- The tables never have a schedule that was removed too. -/
theorem not_both_of_holds (holds : tables.Holds scheduleId held) :
    tables.schedules.get scheduleId = none ∨ tables.tombstones.get scheduleId = none := by
  rcases held with - | (definition | ⟨id, revision⟩)
  · exact Or.inl holds.1
  · exact Or.inr holds.2.1
  · exact Or.inl holds.2.1

/-! ## One delivery -/

theorem apply_takes {definition : RelayScheduleProjection} {nextRunAt : Option Nat}
    (holds : tables.Holds definition.id held)
    (reaches : ∀ above ∈ held, above.rank ≤ (ScheduleMessage.apply definition).rank) :
    tables.apply definition nextRunAt =
      some ({ schedules := tables.schedules.set definition.id
                ⟨definition.revision, definition.enabled, nextRunAt, .projection definition⟩
              tombstones := tables.tombstones.delete definition.id },
        ⟨definition.generation, definition.revision, nextRunAt, definition.id⟩) := by
  rcases held with - | (current | ⟨id, revision⟩)
  · simp [ScheduleTables.apply, holds.1, holds.2]
  · obtain ⟨sameId, noTombstone, nextRun, row⟩ := holds
    have reaches := ScheduleMessage.rank_le_iff.mp (reaches _ rfl)
    simp only [ScheduleMessage.revision, ScheduleMessage.height, WithTop.coe_le_coe] at reaches
    simp only [ScheduleTables.apply, noTombstone, row, Option.filter_none, storedGeneration]
    split
    · rename_i level
      have same : current.revision = definition.revision := by omega
      have below : ¬ definition.generation.getD 0 < current.generation.getD 0 := by omega
      simp [same, below]
    · rfl
  · obtain ⟨-, noRow, tombstone⟩ := holds
    have reaches := ScheduleMessage.rank_le_iff.mp (reaches _ rfl)
    simp only [ScheduleMessage.revision, ScheduleMessage.height, top_le_iff, WithTop.coe_ne_top,
      and_false, or_false] at reaches
    have below : ¬ definition.revision ≤ revision := by omega
    simp [ScheduleTables.apply, tombstone, noRow, Option.filter, below]

/-- A definition that is below what is held changes nothing, and what is held is acknowledged. -/
theorem apply_stale {definition : RelayScheduleProjection} {nextRunAt : Option Nat}
    {above : ScheduleMessage} (holds : tables.Holds definition.id (some above))
    (below : (ScheduleMessage.apply definition).rank < above.rank) :
    ∃ deployment, tables.apply definition nextRunAt = some (tables, deployment) ∧
      deployment.acknowledgedRevision = above.revision := by
  rcases above with current | ⟨id, revision⟩
  · obtain ⟨-, noTombstone, nextRun, row⟩ := holds
    have below := ScheduleMessage.rank_lt_iff.mp below
    simp only [ScheduleMessage.revision, ScheduleMessage.height, WithTop.coe_lt_coe] at below
    refine ⟨⟨current.generation, current.revision, nextRun, definition.id⟩, ?_, rfl⟩
    have level : definition.revision ≤ current.revision := by omega
    have stale : definition.revision < current.revision ∨
        definition.generation.getD 0 < current.generation.getD 0 := below.imp_right And.right
    simp [ScheduleTables.apply, noTombstone, row, storedGeneration, level, stale]
  · obtain ⟨-, noRow, tombstone⟩ := holds
    have below := ScheduleMessage.rank_lt_iff.mp below
    simp only [ScheduleMessage.revision] at below
    have level : definition.revision ≤ revision := by omega
    refine ⟨⟨none, revision, none, definition.id⟩, ?_, rfl⟩
    simp [ScheduleTables.apply, tombstone, Option.filter, level]

theorem remove_takes {revision : Nat} (holds : tables.Holds scheduleId held)
    (reaches : ∀ above ∈ held, above.rank ≤ (ScheduleMessage.remove scheduleId revision).rank) :
    tables.remove scheduleId revision =
      ({ schedules := tables.schedules.delete scheduleId
         tombstones := tables.tombstones.set scheduleId revision },
        ⟨none, revision, none, scheduleId⟩) := by
  rcases held with - | (current | ⟨id, above⟩)
  · simp [ScheduleTables.remove, holds.1, holds.2]
  · obtain ⟨-, noTombstone, nextRun, row⟩ := holds
    have reaches := ScheduleMessage.rank_le_iff.mp (reaches _ rfl)
    simp only [ScheduleMessage.revision] at reaches
    have below : ¬ revision < current.revision := by omega
    simp [ScheduleTables.remove, noTombstone, row, Option.filter, below]
  · obtain ⟨-, noRow, tombstone⟩ := holds
    have reaches := ScheduleMessage.rank_le_iff.mp (reaches _ rfl)
    simp only [ScheduleMessage.revision] at reaches
    have least : above ≤ revision := by omega
    simp [ScheduleTables.remove, tombstone, noRow, max_eq_left least]

/-- A removal that is below what is held changes nothing, and what is held is acknowledged. -/
theorem remove_stale {revision : Nat} {above : ScheduleMessage} (holds : tables.Holds scheduleId (some above))
    (below : (ScheduleMessage.remove scheduleId revision).rank < above.rank) :
    (tables.remove scheduleId revision).1 = tables ∧
      (tables.remove scheduleId revision).2.acknowledgedRevision = above.revision := by
  rcases above with current | ⟨id, above⟩
  · obtain ⟨-, noTombstone, nextRun, row⟩ := holds
    have stale := ScheduleMessage.rank_lt_iff.mp below
    simp only [ScheduleMessage.revision, ScheduleMessage.height, not_top_lt, and_false, or_false] at stale
    simp [ScheduleTables.remove, row, Option.filter, stale, ScheduleMessage.revision]
  · obtain ⟨-, noRow, tombstone⟩ := holds
    have stale := ScheduleMessage.rank_lt_iff.mp below
    simp only [ScheduleMessage.revision, ScheduleMessage.height, not_top_lt, and_false, or_false] at stale
    simp [ScheduleTables.remove, noRow, tombstone, max_eq_right stale.le,
      OrderedMap.delete_eq_self noRow, OrderedMap.set_eq_self tombstone, ScheduleMessage.revision]

theorem deliver_keeps (delivery : ScheduleDelivery) (holds : tables.Holds delivery.message.scheduleId held) :
    ∃ after deployment last, tables.deliver delivery = some (after, deployment) ∧
      Register.keep ScheduleMessage.rank held delivery.message = some last ∧
      after.Holds delivery.message.scheduleId (some last) ∧
      deployment.acknowledgedRevision = last.revision ∧
      ((∃ above ∈ held, delivery.message.rank < above.rank) → after = tables) := by
  by_cases stale : ∃ above ∈ held, delivery.message.rank < above.rank
  · obtain ⟨above, rfl, below⟩ := stale
    obtain ⟨message, nextRunAt⟩ := delivery
    cases message with
    | apply definition =>
      obtain ⟨deployment, applied, acknowledged⟩ := apply_stale holds below
      exact ⟨tables, deployment, above, applied, Register.keep_of_lt below, holds, acknowledged, fun _ => rfl⟩
    | remove id revision =>
      have holds : tables.Holds id (some above) := holds
      obtain ⟨unchanged, acknowledged⟩ := remove_stale holds below
      refine ⟨(tables.remove id revision).1, _, above, rfl, Register.keep_of_lt below, ?_,
        acknowledged, fun _ => unchanged⟩
      rw [unchanged]
      exact holds
  · have reaches : ∀ above ∈ held, above.rank ≤ delivery.message.rank := fun above member =>
      le_of_not_gt fun below => stale ⟨above, member, below⟩
    have kept : Register.keep ScheduleMessage.rank held delivery.message = some delivery.message := by
      cases held with
      | none => exact Register.keep_none
      | some above => exact Register.keep_of_le (reaches above rfl)
    obtain ⟨message, nextRunAt⟩ := delivery
    cases message with
    | apply definition =>
      refine ⟨_, _, _, apply_takes holds reaches, kept, ?_, rfl, fun found => absurd found stale⟩
      exact ⟨rfl, by simp [ScheduleMessage.scheduleId], nextRunAt, by simp [ScheduleMessage.scheduleId]⟩
    | remove id revision =>
      have holds : tables.Holds id held := holds
      have taken := remove_takes holds reaches
      refine ⟨(tables.remove id revision).1, (tables.remove id revision).2, _, rfl, kept, ?_, ?_,
        fun found => absurd found stale⟩
      · rw [taken]
        exact ⟨rfl, by simp [ScheduleMessage.scheduleId], by simp [ScheduleMessage.scheduleId]⟩
      · rw [taken]
        rfl

theorem deliver_other (delivered : tables.deliver delivery = some (after, deployment))
    (other : delivery.message.scheduleId ≠ scheduleId) :
    after.schedules.get scheduleId = tables.schedules.get scheduleId ∧
      after.tombstones.get scheduleId = tables.tombstones.get scheduleId := by
  obtain ⟨message, nextRunAt⟩ := delivery
  cases message with
  | apply definition =>
    have other : definition.id ≠ scheduleId := other
    have written : ∀ {row : ScheduleRow}, (tables.schedules.set definition.id row).get scheduleId =
            tables.schedules.get scheduleId ∧
          (tables.tombstones.delete definition.id).get scheduleId = tables.tombstones.get scheduleId := by
      intro row
      simp [other]
    simp only [ScheduleTables.deliver, ScheduleTables.apply, Option.bind_eq_bind] at delivered
    split at delivered
    · cases delivered
      exact ⟨rfl, rfl⟩
    split at delivered
    · cases delivered
      exact written
    · split at delivered
      · obtain ⟨generation, -, delivered⟩ := Option.bind_eq_some_iff.mp delivered
        split at delivered <;> cases delivered
        · exact ⟨rfl, rfl⟩
        · exact written
      · cases delivered
        exact written
  | remove id revision =>
    have other : id ≠ scheduleId := other
    simp only [ScheduleTables.deliver, ScheduleTables.remove, Option.some.injEq] at delivered
    split at delivered <;> cases delivered
    · exact ⟨rfl, rfl⟩
    · simp [other]

theorem holds_congr (schedules : after.schedules.get scheduleId = tables.schedules.get scheduleId)
    (tombstones : after.tombstones.get scheduleId = tables.tombstones.get scheduleId)
    (holds : tables.Holds scheduleId held) : after.Holds scheduleId held := by
  rcases held with - | (definition | ⟨id, revision⟩) <;>
    simpa only [ScheduleTables.Holds, schedules, tombstones] using holds

theorem holds_unique {other : Option ScheduleMessage} (first : tables.Holds scheduleId held)
    (second : tables.Holds scheduleId other) : held = other := by
  rcases held with - | (definition | ⟨id, revision⟩) <;>
    rcases other with - | (definition' | ⟨id', revision'⟩)
  · rfl
  · obtain ⟨-, -, nextRunAt, row⟩ := second
    exact absurd (first.1.symm.trans row) (by simp)
  · exact absurd (first.2.symm.trans second.2.2) (by simp)
  · obtain ⟨-, -, nextRunAt, row⟩ := first
    exact absurd (second.1.symm.trans row) (by simp)
  · obtain ⟨-, -, nextRunAt, row⟩ := first
    obtain ⟨-, -, nextRunAt', row'⟩ := second
    have same := Option.some.inj (row.symm.trans row')
    injection same with _ _ _ same
    injection same with same
    rw [same]
  · exact absurd (first.2.1.symm.trans second.2.2) (by simp)
  · exact absurd (first.2.2.symm.trans second.2) (by simp)
  · exact absurd (first.2.2.symm.trans second.2.1) (by simp)
  · obtain rfl : id = id' := first.1.trans second.1.symm
    cases first.2.2.symm.trans second.2.2
    rfl

/-! ## Any number of deliveries -/

/-- The messages about a schedule, of those that were delivered. -/
def messagesOf (scheduleId : String) (deliveries : List ScheduleDelivery) :
    List ScheduleMessage :=
  (deliveries.map (·.message)).filter (·.scheduleId = scheduleId)

theorem messagesOf_append (scheduleId : String) (first second : List ScheduleDelivery) :
    messagesOf scheduleId (first ++ second) = messagesOf scheduleId first ++ messagesOf scheduleId second := by
  rw [messagesOf, List.map_append, List.filter_append, messagesOf, messagesOf]

theorem holds_of_run {deliveries : List ScheduleDelivery}
    (run : scheduleSystem.Run {} deliveries tables) (scheduleId : String) :
    tables.Holds scheduleId (Register.keepAll ScheduleMessage.rank none (messagesOf scheduleId deliveries)) := by
  generalize start : ({} : ScheduleTables) = first at run
  induction run with
  | nil =>
    subst start
    exact ⟨rfl, rfl⟩
  | @snoc before after deliveries delivery _ step ih =>
    obtain ⟨⟨after', deployment⟩, delivered, same⟩ := Option.map_eq_some_iff.mp step
    obtain rfl : after' = after := same
    rw [messagesOf_append, Register.keepAll_append]
    by_cases about : delivery.message.scheduleId = scheduleId
    · subst about
      have one : messagesOf delivery.message.scheduleId [delivery] = [delivery.message] := by
        simp [messagesOf]
      obtain ⟨found, ack, last, again, kept, holds, -⟩ := deliver_keeps _ ih
      cases delivered.symm.trans again
      rw [one, Register.keepAll_cons, Register.keepAll_nil, kept]
      exact holds
    · have none' : messagesOf scheduleId [delivery] = [] := by simp [messagesOf, about]
      obtain ⟨schedules, tombstones⟩ := deliver_other delivered about
      rw [none', Register.keepAll_nil]
      exact holds_congr schedules tombstones ih

/-- Deployments converge. After any deliveries, for each schedule, where messages of one revision
    and generation are equal: the tables hold the highest message about it that was delivered, and
    never both a schedule and its removal. What is delivered next is taken, acknowledges the
    revision then stored, and changes nothing if it is below what is stored. -/
theorem deployments_converge {deliveries : List ScheduleDelivery}
    (run : scheduleSystem.Run {} deliveries tables) (scheduleId : String)
    (distinct : ∀ first ∈ messagesOf scheduleId deliveries,
      ∀ second ∈ messagesOf scheduleId deliveries, first.rank = second.rank → first = second) :
    (messagesOf scheduleId deliveries = [] → tables.Holds scheduleId none) ∧
      (messagesOf scheduleId deliveries ≠ [] →
        ∃ highest ∈ messagesOf scheduleId deliveries,
          (∀ message ∈ messagesOf scheduleId deliveries, message.rank ≤ highest.rank) ∧
            ∀ last, tables.Holds scheduleId (some last) ↔ last = highest) ∧
      (∀ others after, scheduleSystem.Run {} others after →
        (∀ message, message ∈ messagesOf scheduleId others ↔
          message ∈ messagesOf scheduleId deliveries) →
        ∀ held, tables.Holds scheduleId held → after.Holds scheduleId held) ∧
      (tables.schedules.get scheduleId = none ∨ tables.tombstones.get scheduleId = none) ∧
      ∀ delivery, delivery.message.scheduleId = scheduleId →
        ∃ after deployment, tables.deliver delivery = some (after, deployment) ∧
          (∃ stored, after.Holds scheduleId (some stored) ∧
            deployment.acknowledgedRevision = stored.revision) ∧
          ∀ above, tables.Holds scheduleId (some above) →
            delivery.message.rank < above.rank → after = tables := by
  have holds := holds_of_run run scheduleId
  refine ⟨?_, ?_, ?_, not_both_of_holds holds, ?_⟩
  · intro none'
    rwa [none', Register.keepAll_nil] at holds
  · intro some'
    obtain ⟨highest, ends, listed, above⟩ :=
      Register.highest ScheduleMessage.rank some'
    rw [ends] at holds
    refine ⟨highest, listed, above, fun last => ⟨fun held => ?_, ?_⟩⟩
    · exact Option.some.inj (holds_unique held holds)
    · rintro rfl
      exact holds
  · intro others after second same held first
    have ends := holds_of_run second scheduleId
    rw [← Register.keepAll_congr (fun message => (same message).symm) distinct] at ends
    rwa [holds_unique first holds]
  · rintro delivery rfl
    obtain ⟨after, deployment, last, delivered, -, stored, acknowledged, stale⟩ :=
      deliver_keeps delivery holds
    refine ⟨after, deployment, delivered, ⟨last, stored, acknowledged⟩, fun above held below => ?_⟩
    exact stale ⟨above, by rw [holds_unique holds held]; exact Option.mem_some_self above, below⟩

/-- A backup every night, as it was first saved and as it was changed. -/
def nightly (revision : Nat) : RelayScheduleProjection :=
  { id := "nightly", revision := revision, cron := "0 3 * * *", targets := [], actions := [] }

/-- The first definition comes late, after the schedule was changed and removed. -/
def lateDeliveries : List ScheduleDelivery :=
  [⟨.apply (nightly 2), some 300⟩, ⟨.remove "nightly" 2, none⟩, ⟨.apply (nightly 1), some 300⟩,
    ⟨.apply (nightly 2), some 600⟩]

def removedTables : ScheduleTables :=
  { tombstones := OrderedMap.empty.set "nightly" 2 }

/-- A schedule that was removed stays removed. -/
theorem deployments_converge_removed :
    messagesOf "nightly" lateDeliveries ≠ [] ∧
      (messagesOf "nightly" lateDeliveries ≠ [] →
        ∃ highest ∈ messagesOf "nightly" lateDeliveries,
          (∀ message ∈ messagesOf "nightly" lateDeliveries, message.rank ≤ highest.rank) ∧
            ∀ last, removedTables.Holds "nightly" (some last) ↔ last = highest) :=
  have run : scheduleSystem.Run {} lateDeliveries removedTables :=
    System.run_of_runAll (by decide)
  ⟨by decide, (deployments_converge run "nightly" (by decide)).2.1⟩

end Kiln.Relay
