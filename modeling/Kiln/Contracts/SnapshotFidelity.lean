import Kiln.Contracts.SnapshotDelta

/-!
# Hearth's copy of a Relay's snapshot

Hearth's copy never falls behind what the deltas compare: whatever run of snapshots it follows,
it has the instances of the latest one, each in its latest control state, and the node and the
relay description as far as they are compared.
-/

namespace Kiln.Contracts
open Kiln.Lib Json List

mutual
theorem same_of_jsonValueEqual : ∀ left right : JsonValue, left.WellFormed →
    jsonValueEqual left right = true → left.Same right
  | .atom left, .atom right, _, equal => by
    have atoms : left = right := by simpa [jsonValueEqual] using equal
    rw [atoms]
    exact .refl _
  | .array left, .array right, formed, equal => by
    simp only [jsonValueEqual, Bool.and_eq_true, decide_eq_true_eq] at equal
    exact .array (same_of_everyItem left right formed equal.1 equal.2)
  | .object left, .object right, formed, equal => by
    simp only [jsonValueEqual, Bool.and_eq_true, decide_eq_true_eq] at equal
    refine .object formed.1 equal.1 fun name value found => ?_
    exact same_of_everyField left right formed.2 equal.2 name value (field_mem found)
  | .atom _, .array _, _, equal | .atom _, .object _, _, equal | .array _, .atom _, _, equal
  | .array _, .object _, _, equal | .object _, .atom _, _, equal
  | .object _, .array _, _, equal => by simp [jsonValueEqual] at equal

theorem same_of_everyItem : ∀ left right : List JsonValue, WellFormedItems left →
    left.length = right.length → everyItem left right = true → Forall₂ Same left right
  | [], [], _, _, _ => .nil
  | value :: rest, other :: others, formed, many, equal => by
    simp only [everyItem, Bool.and_eq_true] at equal
    refine .cons (same_of_jsonValueEqual value other formed.1 equal.1) ?_
    exact same_of_everyItem rest others formed.2 (by simpa using many) equal.2

theorem same_of_everyField : ∀ left right : JsonObject, WellFormedFields left →
    everyField left right = true → ∀ name value, (name, value) ∈ left →
      ∃ other, field name right = some other ∧ value.Same other
  | [], _, _, _, _, _, member => by cases member
  | (key, first) :: rest, right, formed, equal, name, value, member => by
    simp only [everyField, Bool.and_eq_true] at equal
    rcases mem_cons.mp member with here | later
    · obtain ⟨rfl, rfl⟩ : name = key ∧ value = first := by simpa using here
      cases found : field name right with
      | none => simp [found] at equal
      | some other =>
        simp only [found] at equal
        exact ⟨other, rfl, same_of_jsonValueEqual value other formed.1 equal.1⟩
    · exact same_of_everyField rest right formed.2 equal.2 name value later
end

/-- The snapshots a Relay makes: their instances' IDs are unique, and their objects name each field once. -/
structure RelaySnapshot.WellFormed (snapshot : RelaySnapshot) : Prop where
  unique : snapshot.ids.Nodup
  instances : ∀ inst ∈ snapshot.instances, (Json.object inst.object).WellFormed
  node : (Json.object snapshot.node).WellFormed
  relay : ∀ relay, snapshot.relay = some relay → (Json.object relay).WellFormed

/-- Two descriptions read the same. -/
def SameRelay : Option JsonObject → Option JsonObject → Prop
  | none, none => True
  | some left, some right => (Json.object left).Same (.object right)
  | _, _ => False

/-- A copy has of a snapshot what the deltas compare. -/
structure Mirrors (nodeResources : Bool) (latest copy : RelaySnapshot) : Prop where
  ids : ∀ id, id ∈ copy.ids ↔ id ∈ latest.ids
  instances : ∀ inst ∈ copy.instances, ∀ current ∈ latest.instances, inst.id = current.id →
    (relayInstanceControlState inst).Same (relayInstanceControlState current)
  node : (comparedNode nodeResources copy.node).Same (comparedNode nodeResources latest.node)
  relay : SameRelay copy.relay latest.relay

theorem controlState_wellFormed {inst : RelayInstance} (formed : (Json.object inst.object).WellFormed) :
    (relayInstanceControlState inst).WellFormed :=
  formed.filter _

theorem comparedNode_wellFormed {node : RelayNode} (formed : (Json.object node).WellFormed)
    (nodeResources : Bool) : (comparedNode nodeResources node).WellFormed := by
  cases nodeResources with
  | true => exact formed
  | false => exact formed.filter _

theorem sameRelay_refl (relay : Option JsonObject) : SameRelay relay relay := by
  cases relay with
  | none => trivial
  | some relay => exact .refl _

theorem SameRelay.trans {a b c : Option JsonObject} (h : SameRelay a b) (k : SameRelay b c) :
    SameRelay a c := by
  cases a <;> cases b <;> cases c <;> simp_all [SameRelay]
  exact h.trans k

theorem mirrors_refl (nodeResources : Bool) {snapshot : RelaySnapshot}
    (unique : snapshot.ids.Nodup) : Mirrors nodeResources snapshot snapshot where
  ids _ := Iff.rfl
  instances inst member current among same := by
    obtain rfl := inj_on_of_nodup_map unique member among same
    exact .refl _
  node := .refl _
  relay := sameRelay_refl _

/-! ## Applying a delta -/

theorem get_instancesById {instances : List RelayInstance}
    (unique : (instances.map (·.id)).Nodup) {id : String} {inst : RelayInstance} :
    (instancesById instances).get id = some inst ↔ inst ∈ instances ∧ inst.id = id := by
  have distinct : ((instances.map fun inst => (inst.id, inst)).map Prod.fst).Nodup := by
    rw [map_map]
    exact unique
  rw [instancesById, OrderedMap.get_ofEntries distinct, mem_map]
  constructor
  · rintro ⟨other, member, same⟩
    cases same
    exact ⟨member, rfl⟩
  · rintro ⟨member, rfl⟩
    exact ⟨inst, member, rfl⟩

/-- What the walk keeps, and what it leaves of the upserts: each instance that isn't deleted is kept or replaced, and an
upsert is left where no such instance has its ID. -/
theorem retain_spec (deleted : List String) (instances : List RelayInstance)
    (upserts : OrderedMap String RelayInstance) (unique : (instances.map (·.id)).Nodup) :
    (∀ inst, inst ∈ (retain deleted instances upserts).1 ↔ ∃ earlier ∈ instances, earlier.id ∉ deleted ∧
        inst = (upserts.get earlier.id).getD earlier) ∧
    ∀ id, (retain deleted instances upserts).2.get id =
      if ∃ earlier ∈ instances, earlier.id ∉ deleted ∧ earlier.id = id then none
      else upserts.get id := by
  induction instances generalizing upserts with
  | nil => simp [retain]
  | cons inst rest ih =>
    rw [map_cons, nodup_cons] at unique
    have apart : ∀ earlier ∈ rest, earlier.id ≠ inst.id := by
      intro earlier member same
      exact unique.1 (mem_map.mpr ⟨earlier, member, same⟩)
    unfold retain
    by_cases gone : inst.id ∈ deleted
    · rw [if_pos gone]
      obtain ⟨kept, left⟩ := ih upserts unique.2
      refine ⟨fun other => ?_, fun id => ?_⟩
      · rw [kept]
        simp [gone]
      · rw [left]
        simp [gone]
    rw [if_neg gone]
    cases found : upserts.get inst.id with
    | none =>
      obtain ⟨kept, left⟩ := ih upserts unique.2
      refine ⟨fun other => ?_, fun id => ?_⟩
      · simp only [mem_cons, kept]
        simp [gone, found]
      · simp only [left, mem_cons, exists_eq_or_imp, gone, not_false_eq_true, true_and]
        by_cases here : inst.id = id
        · subst here
          simp [found]
        · simp [here]
    | some updated =>
      obtain ⟨kept, left⟩ := ih (upserts.delete inst.id) unique.2
      refine ⟨fun other => ?_, fun id => ?_⟩
      · simp only [mem_cons, kept, exists_eq_or_imp, gone, not_false_eq_true, true_and, found, Option.getD_some]
        apply or_congr Iff.rfl
        apply exists_congr
        intro earlier
        apply and_congr_right
        intro member
        simp [Ne.symm (apart earlier member)]
      · simp only [left, mem_cons, exists_eq_or_imp, gone, not_false_eq_true, true_and, OrderedMap.get_delete]
        by_cases here : inst.id = id
        · simp [here]
        · simp [here]

theorem upserts_keyed {instances : List RelayInstance} (deleted : List String)
    (unique : (instances.map (·.id)).Nodup) {copies : List RelayInstance}
    (distinct : (copies.map (·.id)).Nodup) (inst : RelayInstance) :
    inst ∈ (retain deleted copies (instancesById instances)).2.entries.map Prod.snd ↔ inst ∈ instances ∧
        ¬ ∃ earlier ∈ copies, earlier.id ∉ deleted ∧ earlier.id = inst.id := by
  have left := (retain_spec deleted copies (instancesById instances) distinct).2
  have keyed : ∀ id, (retain deleted copies (instancesById instances)).2.get id = some inst ↔
      (inst ∈ instances ∧ inst.id = id) ∧ ¬ ∃ earlier ∈ copies, earlier.id ∉ deleted ∧ earlier.id = id := by
    intro id
    rw [left]
    split
    · rename_i stays
      simp [stays]
    · rename_i stays
      rw [get_instancesById unique]
      simp [stays]
  simp only [mem_map, Prod.exists, exists_eq_right, ← OrderedMap.get_eq_some, keyed]
  constructor
  · rintro ⟨id, ⟨member, rfl⟩, free⟩
    exact ⟨member, free⟩
  · rintro ⟨member, free⟩
    exact ⟨inst.id, ⟨member, rfl⟩, free⟩

theorem mem_applied {copy : RelaySnapshot} {delta : RelaySnapshotDelta} (unique : copy.ids.Nodup)
    (distinct : (delta.instances.map (·.id)).Nodup) (inst : RelayInstance) :
    inst ∈ (applyRelaySnapshotDelta copy delta).instances ↔ inst ∈ delta.instances ∨
      inst ∈ copy.instances ∧ inst.id ∉ delta.deletedInstanceIds ∧ inst.id ∉ delta.instances.map (·.id) := by
  unfold applyRelaySnapshotDelta
  dsimp only
  split
  · rename_i quiet
    simp only [Bool.and_eq_true, List.isEmpty_iff] at quiet
    simp [quiet.1, quiet.2]
  have kept := (retain_spec delta.deletedInstanceIds copy.instances (instancesById delta.instances) unique).1
  have left := upserts_keyed delta.deletedInstanceIds distinct unique inst
  rw [List.mem_append, kept, left]
  constructor
  · rintro (⟨earlier, member, stays, rfl⟩ | ⟨member, -⟩)
    · cases found : (instancesById delta.instances).get earlier.id with
      | some updated => exact Or.inl ((get_instancesById distinct).mp found).1
      | none =>
        refine Or.inr ⟨member, stays, fun among => ?_⟩
        rw [Option.getD_none] at among
        obtain ⟨updated, updated_member, same⟩ := List.mem_map.mp among
        have present := (get_instancesById distinct).mpr ⟨updated_member, same⟩
        rw [found] at present
        cases present
    · exact Or.inl member
  · rintro (member | ⟨member, stays, untouched⟩)
    · by_cases present : ∃ earlier ∈ copy.instances, earlier.id ∉ delta.deletedInstanceIds ∧ earlier.id = inst.id
      · obtain ⟨earlier, earlier_member, earlier_stays, same⟩ := present
        refine Or.inl ⟨earlier, earlier_member, earlier_stays, ?_⟩
        rw [same, (get_instancesById distinct).mpr ⟨member, rfl⟩]
        rfl
      · exact Or.inr ⟨member, present⟩
    · refine Or.inl ⟨inst, member, stays, ?_⟩
      cases found : (instancesById delta.instances).get inst.id with
      | none => rfl
      | some updated =>
        obtain ⟨updated_member, same⟩ := (get_instancesById distinct).mp found
        exact absurd (List.mem_map.mpr ⟨updated, updated_member, same⟩) untouched

/-- The IDs of those the walk keeps. -/
theorem retain_ids (deleted : List String) (instances : List RelayInstance) (upserts : OrderedMap String RelayInstance)
    (keyed : ∀ id inst, upserts.get id = some inst → inst.id = id) :
    (retain deleted instances upserts).1.map (·.id) = (instances.map (·.id)).filter (· ∉ deleted) := by
  induction instances generalizing upserts with
  | nil => rfl
  | cons inst rest ih =>
    unfold retain
    by_cases gone : inst.id ∈ deleted
    · rw [if_pos gone, ih upserts keyed]
      simp [gone]
    rw [if_neg gone]
    cases found : upserts.get inst.id with
    | none =>
      have later := ih upserts keyed
      simpa [gone] using later
    | some updated =>
      have later := ih (upserts.delete inst.id) fun id other h => by
        rw [OrderedMap.get_delete] at h
        split at h
        · cases h
        · exact keyed id other h
      simpa [gone, keyed inst.id updated found] using later

theorem applied_unique {copy : RelaySnapshot} {delta : RelaySnapshotDelta}
    (unique : copy.ids.Nodup) (distinct : (delta.instances.map (·.id)).Nodup) :
    (applyRelaySnapshotDelta copy delta).ids.Nodup := by
  unfold applyRelaySnapshotDelta RelaySnapshot.ids
  dsimp only
  split
  · exact unique
  have spec := (retain_spec delta.deletedInstanceIds copy.instances (instancesById delta.instances) unique).2
  have kept := retain_ids delta.deletedInstanceIds copy.instances
    (instancesById delta.instances) fun _ _ h => ((get_instancesById distinct).mp h).2
  generalize retained : retain delta.deletedInstanceIds copy.instances
    (instancesById delta.instances) = result at spec kept
  obtain ⟨stayed, left⟩ := result
  have keys : (left.entries.map Prod.snd).map (·.id) = left.entries.map Prod.fst := by
    rw [map_map]
    apply map_congr_left
    rintro ⟨id, inst⟩ member
    have found : left.get id = some inst := OrderedMap.get_eq_some.mpr member
    dsimp only at spec
    rw [spec] at found
    split at found
    · cases found
    · exact ((get_instancesById distinct).mp found).2
  dsimp only at kept spec ⊢
  rw [map_append, nodup_append, kept, keys]
  refine ⟨unique.filter _, left.nodup, ?_⟩
  intro id stays other among same
  subst same
  obtain ⟨⟨_, inst⟩, member, rfl⟩ := mem_map.mp among
  have found := OrderedMap.get_eq_some.mpr member
  simp only [mem_filter, mem_map, decide_eq_true_eq] at stays
  obtain ⟨⟨earlier, earlier_member, same⟩, earlier_stays⟩ := stays
  rw [spec, if_pos ⟨earlier, earlier_member, same ▸ earlier_stays, same⟩] at found
  cases found

/-! ## Following a run of snapshots -/

/-- A delta that isn't sent is one that would change nothing. -/
theorem followOne_eq (nodeResources : Bool) (previous next copy : RelaySnapshot) :
    followOne nodeResources previous next copy =
      applyRelaySnapshotDelta copy (snapshotChanges previous next nodeResources) := by
  unfold followOne createRelaySnapshotDelta
  generalize snapshotChanges previous next nodeResources = delta
  by_cases quiet : delta.isEmpty
  · obtain ⟨deleted, instances, node, relay⟩ := delta
    simp only [RelaySnapshotDelta.isEmpty, Bool.and_eq_true, List.isEmpty_iff, Option.isNone_iff_eq_none] at quiet
    obtain ⟨⟨⟨rfl, rfl⟩, rfl⟩, rfl⟩ := quiet
    rfl
  · simp [quiet]

theorem same_of_relayEqual {previous next : Option JsonObject}
    (formed : ∀ relay, previous = some relay → (Json.object relay).WellFormed)
    (equal : relayEqual previous next = true) : SameRelay previous next := by
  cases previous with
  | none =>
    cases next with
    | none => trivial
    | some relay => cases equal
  | some relay =>
    cases next with
    | none => cases equal
    | some other => exact same_of_jsonValueEqual _ _ (formed relay rfl) equal

/-- A delta brings a copy of one snapshot to the next. -/
theorem Mirrors.step {nodeResources : Bool} {previous next copy : RelaySnapshot}
    (mirrors : Mirrors nodeResources previous copy) (unique : copy.ids.Nodup)
    (formed : previous.WellFormed) (nextUnique : next.ids.Nodup)
    (stays : previous.relay.isSome → next.relay.isSome) :
    Mirrors nodeResources next (followOne nodeResources previous next copy) := by
  rw [followOne_eq]
  set delta := snapshotChanges previous next nodeResources with delta_eq
  have distinct : (delta.instances.map (·.id)).Nodup :=
    nextUnique.sublist (filter_sublist.map _)
  have applied := @mem_applied copy delta unique distinct
  -- An instance that isn't sent is as it was.
  have unsent : ∀ current ∈ next.instances, current ∉ delta.instances →
      ∃ earlier ∈ previous.instances, earlier.id = current.id ∧
        (relayInstanceControlState earlier).Same (relayInstanceControlState current) := by
    intro current member unsent
    have same : changed (instancesById previous.instances) current = false := by
      simpa [delta_eq, snapshotChanges, member] using unsent
    unfold changed at same
    cases found : (instancesById previous.instances).get current.id with
    | none => simp [found] at same
    | some earlier =>
      obtain ⟨earlier_member, same_id⟩ := (get_instancesById formed.unique).mp found
      simp only [found, Bool.not_eq_false'] at same
      exact ⟨earlier, earlier_member, same_id, same_of_jsonValueEqual _ _
        (controlState_wellFormed (formed.instances earlier earlier_member)) same⟩
  have sent : ∀ inst ∈ delta.instances, inst ∈ next.instances :=
    fun inst member => (mem_filter.mp member).1
  refine ⟨fun id => ⟨?_, ?_⟩, ?_, ?_, ?_⟩
  · intro member
    obtain ⟨inst, among, rfl⟩ := mem_map.mp member
    rcases (applied inst).mp among with updated | ⟨kept, stays, -⟩
    · exact mem_map_of_mem (sent inst updated)
    · have earlier := (mirrors.ids inst.id).mp (mem_map_of_mem kept)
      by_contra gone
      exact stays (mem_filter.mpr ⟨earlier, by simpa using gone⟩)
  · intro member
    obtain ⟨current, among, rfl⟩ := mem_map.mp member
    by_cases updated : current.id ∈ delta.instances.map (·.id)
    · obtain ⟨inst, inst_member, same⟩ := mem_map.mp updated
      exact same ▸ mem_map_of_mem ((applied inst).mpr (Or.inl inst_member))
    obtain ⟨earlier, earlier_member, same, -⟩ := unsent current among (fun member => updated (mem_map_of_mem member))
    have copied := (mirrors.ids earlier.id).mpr (mem_map_of_mem earlier_member)
    obtain ⟨inst, inst_member, same'⟩ := mem_map.mp copied
    have id_eq : inst.id = current.id := same'.trans same
    refine id_eq ▸ mem_map_of_mem ((applied inst).mpr (Or.inr ⟨inst_member, ?_, ?_⟩))
    · intro gone
      have absent := (mem_filter.mp gone).2
      rw [id_eq] at absent
      exact absurd member (by simpa using absent)
    · rw [id_eq]
      exact updated
  · intro inst member current among same
    rcases (applied inst).mp member with updated | ⟨kept, -, untouched⟩
    · obtain rfl := inj_on_of_nodup_map nextUnique (sent inst updated) among same
      exact .refl _
    · obtain ⟨earlier, earlier_member, earlier_id, unchanged⟩ := unsent current among
        (fun member => untouched (same ▸ mem_map_of_mem member))
      have before := mirrors.instances inst kept earlier earlier_member (same.trans earlier_id.symm)
      exact before.trans unchanged
  · have node : (applyRelaySnapshotDelta copy delta).node = delta.node.getD copy.node := by
      unfold applyRelaySnapshotDelta
      dsimp only
      split
      · rfl
      · rfl
    rw [node, delta_eq, snapshotChanges]
    dsimp only
    split
    · rename_i equal
      exact mirrors.node.trans (same_of_jsonValueEqual _ _ (comparedNode_wellFormed formed.node nodeResources) equal)
    · exact .refl _
  · have relay : (applyRelaySnapshotDelta copy delta).relay = delta.relay.or copy.relay := by
      unfold applyRelaySnapshotDelta
      dsimp only
      split
      · rfl
      · rfl
    rw [relay, delta_eq, snapshotChanges]
    dsimp only
    split
    · rename_i equal
      exact mirrors.relay.trans (same_of_relayEqual formed.relay equal)
    rename_i differs
    cases present : next.relay with
    | some description => exact sameRelay_refl (some description)
    | none =>
      cases earlier : previous.relay with
      | none => simp [earlier, present, relayEqual] at differs
      | some description =>
        have still := stays (by rw [earlier]; rfl)
        rw [present] at still
        cases still

theorem follow_mirrors {nodeResources : Bool} (rest : List RelaySnapshot)
    {previous copy : RelaySnapshot} (mirrors : Mirrors nodeResources previous copy)
    (unique : copy.ids.Nodup) (formed : ∀ snapshot ∈ previous :: rest, snapshot.WellFormed)
    (stays : (previous :: rest).IsChain fun earlier later =>
      earlier.relay.isSome → later.relay.isSome) :
    Mirrors nodeResources (rest.getLastD previous) (follow nodeResources previous copy rest) := by
  induction rest generalizing previous copy with
  | nil => exact mirrors
  | cons next rest ih =>
    have first := formed previous mem_cons_self
    have later : ∀ snapshot ∈ next :: rest, snapshot.WellFormed :=
      fun snapshot member => formed snapshot (mem_cons_of_mem _ member)
    have nextUnique := (later next mem_cons_self).unique
    rw [isChain_cons_cons] at stays
    have synced := mirrors.step unique first nextUnique stays.1
    have copyUnique : (followOne nodeResources previous next copy).ids.Nodup := by
      rw [followOne_eq]
      exact applied_unique unique (nextUnique.sublist (filter_sublist.map _))
    rw [getLastD_cons]
    exact ih synced copyUnique later stays.2

/-- Over any run of snapshots, whose instances' IDs are unique and whose `relay` stays once it is
    there, Hearth's copy has after each of them its instances, each in its latest control state,
    its node as far as it is compared, and its relay description. -/
theorem delta_fidelity (nodeResources : Bool) (first : RelaySnapshot) (rest : List RelaySnapshot)
    (formed : ∀ snapshot ∈ first :: rest, snapshot.WellFormed)
    (stays : (first :: rest).IsChain fun earlier later =>
      earlier.relay.isSome → later.relay.isSome) :
    Mirrors nodeResources (rest.getLastD first) (follow nodeResources first first rest) :=
  follow_mirrors rest (mirrors_refl nodeResources (formed first mem_cons_self).unique)
    (formed first mem_cons_self).unique formed stays

/-- A Relay whose one instance starts, next to a resource sample that isn't sent. -/
def idleRelay (state : String) (load : UInt64) : RelaySnapshot where
  node := [("name", .atom (.string "home")), ("cpu", .atom (.number load))]
  instances := [⟨"a", [("observedState", .atom (.string state)), ("resources", .atom (.number load))]⟩]
  relay := none

theorem idleRelay_wellFormed (state : String) (load : UInt64) : (idleRelay state load).WellFormed where
  unique := by simp [idleRelay, RelaySnapshot.ids]
  instances := by
    simp [idleRelay, RelayInstance.object, Json.WellFormed, WellFormedFields]
  node := by simp [idleRelay, Json.WellFormed, WellFormedFields]
  relay := by simp [idleRelay]

theorem delta_fidelity_idleRelay :
    Mirrors false (idleRelay "running" 3)
      (follow false (idleRelay "stopped" 1) (idleRelay "stopped" 1)
        [idleRelay "stopped" 2, idleRelay "running" 3]) := by
  refine delta_fidelity false (idleRelay "stopped" 1)
    [idleRelay "stopped" 2, idleRelay "running" 3] ?_ ?_
  · intro snapshot member
    simp only [mem_cons, not_mem_nil, or_false] at member
    rcases member with rfl | rfl | rfl
    · exact idleRelay_wellFormed _ _
    · exact idleRelay_wellFormed _ _
    · exact idleRelay_wellFormed _ _
  · simp [idleRelay]

end Kiln.Contracts
