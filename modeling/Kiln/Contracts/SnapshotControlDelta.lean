import Mathlib
import Kiln.Contracts.SnapshotFidelity

/-!
# Control deltas

`relaySnapshotControlDelta` of packages/contracts/src/index.ts, which takes a node that only has new samples out of a delta
that was made with node resources. What's left is the delta that's made without them.
-/

namespace Kiln.Contracts
open Kiln.Lib

/-- `relaySnapshotControlDelta` -/
def relaySnapshotControlDelta (previous : RelaySnapshot) (delta : RelaySnapshotDelta) : Option RelaySnapshotDelta :=
  match delta.node with
  | none => some delta
  | some node =>
      if jsonValueEqual (relayNodeControlState previous.node) (relayNodeControlState node) then
        let control := { delta with node := none }
        if control.instances.isEmpty && control.deletedInstanceIds.isEmpty && control.relay.isNone then none
        else some control
      else some delta

/-- What a session sends to a peer that takes no node resources, applied to a copy, where it's derived from what another
peer is sent. -/
def followDerived (previous next copy : RelaySnapshot) : RelaySnapshot :=
  match (createRelaySnapshotDelta previous next true).bind (relaySnapshotControlDelta previous) with
  | some delta => applyRelaySnapshotDelta copy delta
  | none => copy

def followAllDerived : RelaySnapshot → RelaySnapshot → List RelaySnapshot → RelaySnapshot
  | _, copy, [] => copy
  | previous, copy, next :: rest => followAllDerived next (followDerived previous next copy) rest

/-! ## Equal nodes have equal control states -/

variable {fields others : JsonObject}

theorem field_of_everyField (equal : everyField fields others = true) {name : String} {value : JsonValue}
    (member : (name, value) ∈ fields) :
    ∃ other, Json.field name others = some other ∧ jsonValueEqual value other = true := by
  induction fields with
  | nil => cases member
  | cons entry fields ih =>
    obtain ⟨key, first⟩ := entry
    rw [everyField, Bool.and_eq_true] at equal
    rcases List.mem_cons.mp member with same | later
    · cases same
      cases found : Json.field name others with
      | none =>
        rw [found] at equal
        cases equal.1
      | some other =>
        rw [found] at equal
        exact ⟨other, rfl, equal.1⟩
    · exact ih equal.2 later

theorem field_filter {keep : String → Bool} {name : String} (kept : keep name = true) :
    Json.field name (fields.filter fun entry => keep entry.1) = Json.field name fields := by
  induction fields with
  | nil => rfl
  | cons entry fields ih =>
    by_cases keeps : keep entry.1 = true
    · rw [List.filter_cons, if_pos keeps, Json.field, Json.field, ih]
    · have other : entry.1 ≠ name := by
        intro same
        rw [same] at keeps
        exact keeps kept
      rw [List.filter_cons, if_neg keeps, ih, Json.field, if_neg other]

theorem everyField_filter (keep : String → Bool) (equal : everyField fields others = true) :
    everyField (fields.filter fun entry => keep entry.1) (others.filter fun entry => keep entry.1) = true := by
  induction fields with
  | nil => rw [List.filter_nil, everyField]
  | cons entry fields ih =>
    obtain ⟨key, value⟩ := entry
    rw [everyField, Bool.and_eq_true] at equal
    by_cases keeps : keep key = true
    · rw [List.filter_cons, if_pos keeps, everyField, field_filter keeps, equal.1, ih equal.2]
      rfl
    · rw [List.filter_cons, if_neg keeps]
      exact ih equal.2

theorem length_filter_eq (keep : String → Bool) (distinct : (fields.map Prod.fst).Nodup)
    (many : fields.length = others.length) (equal : everyField fields others = true) :
    (fields.filter fun entry => keep entry.1).length = (others.filter fun entry => keep entry.1).length := by
  have counts : ∀ fields : JsonObject, (fields.filter fun entry => keep entry.1).length = (fields.map Prod.fst).countP keep := by
    intro fields
    rw [← List.countP_eq_length_filter, List.countP_map]
    rfl
  have among : fields.map Prod.fst ⊆ others.map Prod.fst := by
    intro name member
    obtain ⟨⟨name, value⟩, entry, rfl⟩ := List.mem_map.mp member
    obtain ⟨other, found, -⟩ := field_of_everyField equal entry
    exact Json.field_isSome.mp (Option.isSome_iff_exists.mpr ⟨other, found⟩)
  have names : (fields.map Prod.fst).Perm (others.map Prod.fst) := by
    refine (List.subperm_of_subset distinct among).perm_of_length_le ?_
    rw [List.length_map, List.length_map]
    omega
  rw [counts, counts, names.countP_eq]

theorem controlState_equal {previous next : RelayNode} (distinct : (previous.map Prod.fst).Nodup)
    (equal : jsonValueEqual (.object previous) (.object next) = true) :
    jsonValueEqual (relayNodeControlState previous) (relayNodeControlState next) = true := by
  rw [jsonValueEqual, Bool.and_eq_true, decide_eq_true_eq] at equal
  have many := length_filter_eq (fun name => name ∉ nodeSamples) distinct equal.1 equal.2
  have fields := everyField_filter (fun name => name ∉ nodeSamples) equal.2
  rw [relayNodeControlState, relayNodeControlState, jsonValueEqual, Bool.and_eq_true, decide_eq_true_eq]
  exact ⟨many, fields⟩

/-! ## The two deltas agree -/

theorem controlDelta_eq {previous : RelaySnapshot} (distinct : (previous.node.map Prod.fst).Nodup) (next : RelaySnapshot) :
    (createRelaySnapshotDelta previous next true).bind (relaySnapshotControlDelta previous) =
      createRelaySnapshotDelta previous next false := by
  by_cases full : jsonValueEqual (.object previous.node) (.object next.node) = true
  · -- No node is sent either way.
    have control := controlState_equal distinct full
    have same : snapshotChanges previous next true = snapshotChanges previous next false := by
      simp only [snapshotChanges, comparedNode, if_true, Bool.false_eq_true, if_false, full, control]
    have node : (snapshotChanges previous next false).node = none := by
      simp only [snapshotChanges, comparedNode, Bool.false_eq_true, if_false, control, if_true]
    rw [createRelaySnapshotDelta, createRelaySnapshotDelta, same]
    by_cases empty : (snapshotChanges previous next false).isEmpty = true
    · rw [if_pos empty]
      rfl
    · rw [if_neg empty, Option.bind_some, relaySnapshotControlDelta, node]
  · have sent : (snapshotChanges previous next true).node = some next.node := by
      simp only [snapshotChanges, comparedNode, if_true, full, Bool.false_eq_true, if_false]
    have some_ : (snapshotChanges previous next true).isEmpty = false := by
      rw [RelaySnapshotDelta.isEmpty, sent, Option.isNone_some, Bool.and_false, Bool.false_and]
    rw [createRelaySnapshotDelta, some_, if_neg Bool.false_ne_true, Option.bind_some, relaySnapshotControlDelta, sent]
    by_cases control : jsonValueEqual (relayNodeControlState previous.node) (relayNodeControlState next.node) = true
    · -- The node has new samples only, and is taken out.
      have stripped : { snapshotChanges previous next true with node := none } = snapshotChanges previous next false := by
        simp only [snapshotChanges, comparedNode, Bool.false_eq_true, if_false, control, if_true]
      have node : (snapshotChanges previous next false).node = none := by rw [← stripped]
      simp only [control, if_true, stripped, createRelaySnapshotDelta, RelaySnapshotDelta.isEmpty, node, Option.isNone_none,
        Bool.and_true]
      rfl
    · have same : snapshotChanges previous next true = snapshotChanges previous next false := by
        simp only [snapshotChanges, comparedNode, if_true, full, Bool.false_eq_true, if_false, control]
      simp only [control, Bool.false_eq_true, if_false]
      rw [createRelaySnapshotDelta, ← same, some_, if_neg Bool.false_ne_true]

/-- A peer that takes no node resources ends with the same copy, over any run of snapshots, whichever way its deltas are
made. -/
theorem controlDelta_agrees (first copy : RelaySnapshot) (rest : List RelaySnapshot)
    (distinct : ∀ snapshot ∈ first :: rest, (snapshot.node.map Prod.fst).Nodup) :
    (∀ previous ∈ first :: rest, ∀ next, (createRelaySnapshotDelta previous next true).bind
      (relaySnapshotControlDelta previous) = createRelaySnapshotDelta previous next false) ∧
    followAllDerived first copy rest = follow false first copy rest := by
  refine ⟨fun previous member next => controlDelta_eq (distinct previous member) next, ?_⟩
  induction rest generalizing first copy with
  | nil => rfl
  | cons next rest ih =>
    rw [followAllDerived, follow, followDerived, controlDelta_eq (distinct first List.mem_cons_self) next]
    exact ih next _ fun snapshot member => distinct snapshot (List.mem_cons_of_mem _ member)

theorem controlDelta_agrees_idleRelay :
    (∀ previous ∈ [idleRelay "stopped" 1, idleRelay "stopped" 2], ∀ next, (createRelaySnapshotDelta previous next true).bind
      (relaySnapshotControlDelta previous) = createRelaySnapshotDelta previous next false) ∧
    followAllDerived (idleRelay "stopped" 1) (idleRelay "stopped" 1) [idleRelay "stopped" 2] =
      follow false (idleRelay "stopped" 1) (idleRelay "stopped" 1) [idleRelay "stopped" 2] :=
  controlDelta_agrees (idleRelay "stopped" 1) (idleRelay "stopped" 1) [idleRelay "stopped" 2] (by decide)

end Kiln.Contracts
