import Mathlib
import Kiln.Hearth.InstanceRegistry
import Kiln.Lib.Transition

/-!
# Hearth's own creates and deletes, and the startup reconciliation

`lifecycleWrite` and `syncInstanceRegistryEffect` of apps/web/src/lib/instance-registry.ts for one Relay: the permit,
the two sets kept for the life of the process, and reservations, which take no permit. A write may fail in the
database, or be carried out and reported as failed. Reconciliations may be given any snapshot.
-/

namespace Kiln.Hearth
open Kiln.Lib List Option

/-- A write of Hearth's own. -/
inductive LifecycleChange where
  | registerPrepared (instance_ : DirectoryInstance) (ownerId : String)
  | recordCreated (instance_ : DirectoryInstance) (ownerId : String)
  | unregister (id : String)
  deriving DecidableEq

namespace LifecycleChange

def created? : LifecycleChange → Option String
  | .registerPrepared instance_ _ | .recordCreated instance_ _ => some instance_.id
  | .unregister _ => none

def deleted? : LifecycleChange → Option String
  | .unregister id => some id
  | _ => none

def apply (records : InstanceRecords) : LifecycleChange → InstanceRecords
  | .registerPrepared instance_ owner => records.registerPrepared instance_ owner
  | .recordCreated instance_ owner => records.recordCreated instance_ owner
  | .unregister id => records.unregister id

end LifecycleChange

/-- A reconciliation once it has its permit: what it found then. -/
structure Reconciliation where
  snapshot : List DirectoryInstance
  now : Nat
  listed : List DirectoryInstance
  kept : List String
  /-- Those that Hearth had set out to record the deletion of. -/
  deleted : List String

/-- What holds the permit. -/
inductive PermitHolder where
  | change (change : LifecycleChange)
  | sync (reconciliation : Reconciliation)

structure RegistryState where
  records : InstanceRecords := fun _ => none
  /-- `lifecycle.created` -/
  created : List String := []
  /-- `lifecycle.deleted` -/
  deleted : List String := []
  permit : Option PermitHolder := none
  /-- The creates and the deletions that the database has carried out. -/
  recordedCreates : List String := []
  recordedDeletes : List String := []
  /-- The last reconciliation that it has, and the reservations made since. -/
  synced : Option Reconciliation := none
  reservedSince : List String := []

inductive RegistryEvent where
  | reserve (id ownerId : String) (now : Nat)
  /-- A change takes the permit. -/
  | begin (change : LifecycleChange)
  | beginSync (snapshot : List DirectoryInstance) (now : Nat)
  /-- The database carries out what the permit's holder asks for. Its answer doesn't matter here. -/
  | carryOut (relayOwner : Option String)
  /-- It doesn't. -/
  | fail

namespace RegistryState

/-- What `syncInstanceRegistryEffect` finds once it has the permit. -/
def reconciliation (s : RegistryState) (snapshot : List DirectoryInstance) (now : Nat) : Reconciliation :=
  let listed := snapshot.filter fun instance_ => instance_.id ∉ s.deleted
  { snapshot, now, listed
    kept := listed.map (·.id) ++ s.created
    deleted := s.deleted }

/-- What holds the permit is carried out, and lets it go. -/
def carryOut (s : RegistryState) (relayOwner : Option String) : PermitHolder → RegistryState
  | .change change =>
      { s with
        records := change.apply s.records
        permit := none
        recordedCreates := s.recordedCreates ++ change.created?.toList
        recordedDeletes := s.recordedDeletes ++ change.deleted?.toList }
  | .sync reconciliation =>
      { s with
        records := s.records.sync reconciliation.listed reconciliation.kept reconciliation.now relayOwner
        permit := none
        synced := some reconciliation
        reservedSince := [] }

def next (s : RegistryState) : RegistryEvent → Option RegistryState
  | .reserve id owner now => some { s with
      records := s.records.reservePrepared id owner now
      reservedSince := s.reservedSince ++ [id] }
  | .begin change =>
      if s.permit.isNone then
        some { s with
          created := s.created ++ change.created?.toList
          deleted := s.deleted ++ change.deleted?.toList
          permit := some (.change change) }
      else none
  | .beginSync snapshot now =>
      if s.permit.isNone then some { s with permit := some (.sync (s.reconciliation snapshot now)) } else none
  | .carryOut relayOwner => s.permit.map (s.carryOut relayOwner)
  | .fail => s.permit.map fun _ => { s with permit := none }

/-- IDs are never reused: nothing is reserved or recorded under one that Hearth has set out to delete. -/
def unused (s : RegistryState) : RegistryEvent → Bool
  | .reserve id _ _ => id ∉ s.deleted
  | .begin change => change.created?.all (· ∉ s.deleted)
  | _ => true

end RegistryState

/-- The runs of a Hearth over the records of a Relay, however they were when it started. -/
def registrySystem : System RegistryState RegistryEvent :=
  .ofFunction (fun s => ∃ records, s = { records }) RegistryState.next

/-- A row that is reserved, past the clock or since. -/
def RegistryState.Reserved (s : RegistryState) (now : Nat) (id : String) (row : InstanceRecord) : Prop :=
  (∃ until_, row.provisioningReservedUntil = some until_ ∧ now < until_) ∨ id ∈ s.reservedSince

/-! ## What is to hold -/

/-- Servers whose record Hearth wrote have one, those whose deletion it recorded have none, each other one of the last
reconciliation's snapshot has one, and other records are reserved. -/
structure RegistryState.KeepsOwn (s : RegistryState) : Prop where
  created : ∀ id ∈ s.recordedCreates, id ∉ s.recordedDeletes → s.records id ≠ none
  deleted : ∀ id ∈ s.recordedDeletes, s.records id = none
  listed : ∀ sync, s.synced = some sync → ∀ instance_ ∈ sync.snapshot, instance_.id ∉ s.recordedDeletes →
    s.records instance_.id ≠ none
  others : ∀ sync, s.synced = some sync → ∀ id row, s.records id = some row → id ∉ s.recordedCreates →
    (∀ instance_ ∈ sync.snapshot, instance_.id ≠ id) → s.Reserved sync.now id row

/-- The same of what Hearth set out to do: a server that it set out to delete needs no record, though listed, and the
reconciliation deletes it unless Hearth set out to create it; one that it set out to create may keep one. -/
structure RegistryState.KeepsAttempted (s : RegistryState) : Prop where
  created : ∀ id ∈ s.recordedCreates, id ∉ s.recordedDeletes → s.records id ≠ none
  deleted : ∀ id ∈ s.recordedDeletes, s.records id = none
  listed : ∀ sync, s.synced = some sync → ∀ instance_ ∈ sync.snapshot, instance_.id ∉ s.deleted →
    s.records instance_.id ≠ none
  others : ∀ sync, s.synced = some sync → ∀ id row, s.records id = some row → id ∉ s.created →
    (∀ instance_ ∈ sync.snapshot, instance_.id = id → id ∈ sync.deleted) → s.Reserved sync.now id row

/-- Someone owns it for good. -/
def InstanceRecord.OwnedBy (row : InstanceRecord) (owner : String) : Prop :=
  row.ownerId = some owner ∧ row.ownerProvisional = false

/-- Nobody owns it but provisionally. -/
def InstanceRecord.Unsettled (row : InstanceRecord) : Prop := row.ownerId = none ∨ row.ownerProvisional = true

def OwnerChange.chosen? : OwnerChange → Option String
  | .choose owner => some owner
  | _ => none

/-- The owner that was chosen last. -/
def lastChosen (changes : List OwnerChange) : Option String := (changes.filterMap OwnerChange.chosen?).getLast?

/-! ## Owners -/

variable {row : InstanceRecord}

theorem ownedBy_apply {owner : String} {change : OwnerChange} (its : row.OwnedBy owner)
    (not : change.chosen? = none) : (change.apply row).OwnedBy owner := by
  obtain ⟨is, settled⟩ := its
  cases change with
  | claim claimed =>
    have stays : (if row.ownerId.isNone || row.ownerProvisional then some claimed else row.ownerId) = some owner := by
      rw [is, settled]
      rfl
    refine ⟨stays, ?_⟩
    simp only [OwnerChange.apply, settled, ite_self]
  | standIn relayOwner =>
    refine ⟨?_, ?_⟩
    · simp only [OwnerChange.apply, is, some_or]
    · simp only [OwnerChange.apply, is, settled, isNone_some, Bool.false_eq_true, if_false]
  | choose chosen => cases not

theorem ownedBy_claim (unsettled : row.Unsettled) (owner : String) :
    ((OwnerChange.claim owner).apply row).OwnedBy owner := by
  have goes : (row.ownerId.isNone || row.ownerProvisional) = true := by
    rcases unsettled with none_ | provisional
    · rw [none_]
      rfl
    · rw [provisional, Bool.or_true]
  simp only [InstanceRecord.OwnedBy, OwnerChange.apply, goes, if_true, and_self]

theorem unsettled_standIn (unsettled : row.Unsettled) (relayOwner : Option String) :
    ((OwnerChange.standIn relayOwner).apply row).Unsettled := by
  refine .inr ?_
  rcases unsettled with none_ | provisional
  · simp only [OwnerChange.apply, none_, isNone_none, if_true]
  · simp only [OwnerChange.apply, provisional, ite_self]

/-- Who owns a row that nobody owned for good, once changes have befallen it. -/
def InstanceRecord.OwnedAfter (row : InstanceRecord) (creator : String) (changes : List OwnerChange) : Prop :=
  match lastChosen changes with
  | some chosen => row.OwnedBy chosen
  | none => if OwnerChange.claim creator ∈ changes then row.OwnedBy creator else row.Unsettled

theorem lastChosen_append {changes : List OwnerChange} {change : OwnerChange} :
    lastChosen (changes ++ [change]) = change.chosen?.or (lastChosen changes) := by
  unfold lastChosen
  rw [filterMap_append]
  cases is : change.chosen? with
  | none =>
    rw [filterMap_cons_none is, filterMap_nil, append_nil]
    rfl
  | some chosen =>
    rw [filterMap_cons_some is, filterMap_nil, getLast?_concat]
    rfl

theorem ownedAfter_foldl {creator : String} (unsettled : row.Unsettled) {changes : List OwnerChange}
    (its : ∀ owner, OwnerChange.claim owner ∈ changes → owner = creator) :
    (changes.foldl OwnerChange.apply row).OwnedAfter creator changes := by
  induction changes using reverseRecOn with
  | nil => exact unsettled
  | append_singleton changes change ih =>
    have before := ih fun owner among => its owner (mem_append_left _ among)
    rw [foldl_append, foldl_cons, foldl_nil]
    unfold InstanceRecord.OwnedAfter at before ⊢
    rw [lastChosen_append]
    cases change with
    | choose chosen => exact ⟨rfl, rfl⟩
    | claim owner =>
      obtain rfl := its owner (mem_append_right _ (mem_singleton_self _))
      simp only [OwnerChange.chosen?, none_or]
      split at before
      · exact ownedBy_apply before rfl
      · rw [if_pos (mem_append_right _ (mem_singleton_self _))]
        split at before
        · exact ownedBy_apply before rfl
        · exact ownedBy_claim before owner
    | standIn relayOwner =>
      simp only [OwnerChange.chosen?, none_or]
      split at before
      · exact ownedBy_apply before rfl
      have same : OwnerChange.claim creator ∈ changes ++ [OwnerChange.standIn relayOwner] ↔
          OwnerChange.claim creator ∈ changes := by simp
      simp only [same]
      split at before
      · rename_i claimed
        rw [if_pos claimed]
        exact ownedBy_apply before rfl
      · rename_i unclaimed
        rw [if_neg unclaimed]
        exact unsettled_standIn before relayOwner

/-! ## Statements -/

namespace InstanceRecords

variable {records : InstanceRecords} {id : String}

theorem upsert_self (records : InstanceRecords) (id : String) (change : InstanceRecord → InstanceRecord) :
    records.upsert id change id = some (change ((records id).getD {})) := Function.update_self ..

variable {other : String}

theorem upsert_other (different : other ≠ id) (change : InstanceRecord → InstanceRecord) :
    records.upsert id change other = records other := Function.update_of_ne different ..

theorem upsert_ne_none {change : InstanceRecord → InstanceRecord} (there : other = id ∨ records other ≠ none) :
    records.upsert id change other ≠ none := by
  by_cases same : other = id
  · rw [same, upsert_self]
    exact some_ne_none _
  · rw [upsert_other same]
    exact there.resolve_left same

theorem unregister_self (records : InstanceRecords) (id : String) : records.unregister id id = none :=
  Function.update_self ..

theorem unregister_other (different : other ≠ id) : records.unregister id other = records other :=
  Function.update_of_ne different ..

/-- The upserts of a list. -/
abbrev upsertAll (records : InstanceRecords) (instances : List DirectoryInstance)
    (change : DirectoryInstance → InstanceRecord → InstanceRecord) : InstanceRecords :=
  instances.foldl (fun records instance_ => records.upsert instance_.id (change instance_)) records

theorem upsertAll_ne_none {instances : List DirectoryInstance}
    {change : DirectoryInstance → InstanceRecord → InstanceRecord}
    (there : id ∈ instances.map (·.id) ∨ records id ≠ none) : records.upsertAll instances change id ≠ none := by
  induction instances generalizing records with
  | nil => exact there.resolve_left not_mem_nil
  | cons instance_ rest ih =>
    refine ih ?_
    rcases there with listed | there
    · rcases mem_cons.mp listed with same | later
      · exact .inr (upsert_ne_none (.inl same))
      · exact .inl later
    · exact .inr (upsert_ne_none (.inr there))

theorem upsertAll_other {instances : List DirectoryInstance}
    {change : DirectoryInstance → InstanceRecord → InstanceRecord} (out : id ∉ instances.map (·.id)) :
    records.upsertAll instances change id = records id := by
  induction instances generalizing records with
  | nil => rfl
  | cons instance_ rest ih =>
    rw [map_cons, mem_cons, not_or] at out
    exact (ih out.2).trans (upsert_other out.1 _)

theorem deleteUnkept_eq_some {kept : List String} {now : Nat} {row : InstanceRecord} :
    records.deleteUnkept kept now id = some row ↔
      records id = some row ∧ (id ∈ kept ∨ ∃ until_, row.provisioningReservedUntil = some until_ ∧ now < until_) := by
  rw [deleteUnkept, Option.filter_eq_some_iff, Bool.or_eq_true, decide_eq_true_eq, Option.any_eq_true]
  simp only [decide_eq_true_eq]

theorem deleteUnkept_ne_none {kept : List String} (now : Nat) (there : records id ≠ none) (keeps : id ∈ kept) :
    records.deleteUnkept kept now id ≠ none := by
  obtain ⟨row, is⟩ := ne_none_iff_exists'.mp there
  rw [deleteUnkept_eq_some.mpr ⟨is, .inl keeps⟩]
  exact some_ne_none row

end InstanceRecords

/-! ## What is kept -/

namespace RegistryState

/-- What the permit's holder has written down. -/
def Holds (s : RegistryState) : PermitHolder → Prop
  | .change change => (∀ id ∈ change.created?, id ∈ s.created ∧ id ∉ s.deleted) ∧ ∀ id ∈ change.deleted?, id ∈ s.deleted
  | .sync sync => sync.listed = sync.snapshot.filter (fun instance_ => instance_.id ∉ s.deleted) ∧
      sync.kept = sync.listed.map (·.id) ++ s.created ∧ sync.deleted = s.deleted

structure Kept (s : RegistryState) : Prop extends s.KeepsAttempted where
  creates : ∀ id ∈ s.recordedCreates, id ∈ s.created
  deletes : ∀ id ∈ s.recordedDeletes, id ∈ s.deleted
  holds : ∀ holder, s.permit = some holder → s.Holds holder

variable {row : InstanceRecord} {id : String}

theorem Reserved.mono {s s' : RegistryState} {now : Nat} (reserved : s.Reserved now id row)
    (more : ∀ id ∈ s.reservedSince, id ∈ s'.reservedSince) :
    s'.Reserved now id row :=
  reserved.imp_right (more id)

section

variable {s s' : RegistryState}

variable {id : String}

theorem Kept.reserve (kept : s.Kept) (unused : id ∉ s.deleted) (change : InstanceRecord → InstanceRecord) : ({ s with
      records := s.records.upsert id change
      reservedSince := s.reservedSince ++ [id] } : RegistryState).Kept where
  created := fun other its notDeleted => InstanceRecords.upsert_ne_none (.inr (kept.created other its notDeleted))
  deleted := fun other its => by
    have different : other ≠ id := fun same => unused (same ▸ kept.deletes other its)
    exact (InstanceRecords.upsert_other different _).trans (kept.deleted other its)
  listed := fun sync is instance_ among notDeleted =>
    InstanceRecords.upsert_ne_none (.inr (kept.listed sync is instance_ among notDeleted))
  others := fun sync is other row there notCreated notListed => by
    by_cases same : other = id
    · exact .inr (mem_append_right _ (mem_singleton.mpr same))
    · dsimp only at there
      rw [InstanceRecords.upsert_other same] at there
      exact (kept.others sync is other row there notCreated notListed).mono fun _ => mem_append_left _
  creates := kept.creates
  deletes := kept.deletes
  holds := fun holder is => by
    have holds := kept.holds holder is
    cases holder with
    | change change => exact holds
    | sync sync => exact holds

theorem Kept.begin (kept : s.Kept) {change : LifecycleChange} (unused : change.created?.all (· ∉ s.deleted) = true) :
    ({ s with
      created := s.created ++ change.created?.toList
      deleted := s.deleted ++ change.deleted?.toList
      permit := some (.change change) } : RegistryState).Kept where
  created := kept.created
  deleted := kept.deleted
  listed := fun sync is instance_ among notDeleted =>
    kept.listed sync is instance_ among fun before => notDeleted (mem_append_left _ before)
  others := fun sync is other row there notCreated notListed =>
    kept.others sync is other row there (fun before => notCreated (mem_append_left _ before)) notListed
  creates := fun id its => mem_append_left _ (kept.creates id its)
  deletes := fun id its => mem_append_left _ (kept.deletes id its)
  holds := fun holder is => by
    cases is
    refine ⟨fun id its => ⟨mem_append_right _ (mem_toList.mpr its), fun deleted => ?_⟩,
      fun id its => mem_append_right _ (mem_toList.mpr its)⟩
    rcases mem_append.mp deleted with before | now
    · cases change with
      | unregister => cases its
      | registerPrepared instance_ owner =>
        cases its
        exact of_decide_eq_true unused before
      | recordCreated instance_ owner =>
        cases its
        exact of_decide_eq_true unused before
    · have its' := mem_toList.mp now
      cases change with
      | unregister => cases its
      | registerPrepared instance_ owner => exact absurd its' nofun
      | recordCreated instance_ owner => exact absurd its' nofun

/-- A create that is carried out. -/
theorem Kept.create (kept : s.Kept) (set : id ∈ s.created) (unused : id ∉ s.deleted)
    (change : InstanceRecord → InstanceRecord) :
    ({ s with
      records := s.records.upsert id change
      permit := none
      recordedCreates := s.recordedCreates ++ [id]
      recordedDeletes := s.recordedDeletes ++ [] } : RegistryState).Kept where
  created := fun other its notDeleted => by
    rw [append_nil] at notDeleted
    rcases mem_append.mp its with before | now
    · exact InstanceRecords.upsert_ne_none (.inr (kept.created other before notDeleted))
    · exact InstanceRecords.upsert_ne_none (.inl (mem_singleton.mp now))
  deleted := fun other its => by
    rw [append_nil] at its
    have different : other ≠ id := fun same => unused (same ▸ kept.deletes other its)
    exact (InstanceRecords.upsert_other different _).trans (kept.deleted other its)
  listed := fun sync is instance_ among notDeleted =>
    InstanceRecords.upsert_ne_none (.inr (kept.listed sync is instance_ among notDeleted))
  others := fun sync is other row there notCreated notListed => by
    have different : other ≠ id := fun same => notCreated (same ▸ set)
    dsimp only at there
    rw [InstanceRecords.upsert_other different] at there
    exact kept.others sync is other row there notCreated notListed
  creates := fun other its => by
    rcases mem_append.mp its with before | now
    · exact kept.creates other before
    · exact mem_singleton.mp now ▸ set
  deletes := fun other its => by
    rw [append_nil] at its
    exact kept.deletes other its
  holds := nofun

/-- A deletion that is carried out. -/
theorem Kept.delete (kept : s.Kept) (set : id ∈ s.deleted) : ({ s with
      records := s.records.unregister id
      permit := none
      recordedCreates := s.recordedCreates ++ []
      recordedDeletes := s.recordedDeletes ++ [id] } : RegistryState).Kept where
  created := fun other its notDeleted => by
    rw [append_nil] at its
    rw [mem_append, not_or, mem_singleton] at notDeleted
    exact (InstanceRecords.unregister_other notDeleted.2).trans_ne (kept.created other its notDeleted.1)
  deleted := fun other its => by
    by_cases same : other = id
    · exact same ▸ InstanceRecords.unregister_self _ _
    · have before := (mem_append.mp its).resolve_right fun now => same (mem_singleton.mp now)
      exact (InstanceRecords.unregister_other same).trans (kept.deleted other before)
  listed := fun sync is instance_ among notDeleted => by
    have different : instance_.id ≠ id := fun same => notDeleted (same ▸ set)
    exact (InstanceRecords.unregister_other different).trans_ne (kept.listed sync is instance_ among notDeleted)
  others := fun sync is other row there notCreated notListed => by
    dsimp only at there
    by_cases same : other = id
    · rw [same, InstanceRecords.unregister_self] at there
      cases there
    · rw [InstanceRecords.unregister_other same] at there
      exact kept.others sync is other row there notCreated notListed
  creates := fun other its => by
    rw [append_nil] at its
    exact kept.creates other its
  deletes := fun other its => by
    rcases mem_append.mp its with before | now
    · exact kept.deletes other before
    · exact mem_singleton.mp now ▸ set
  holds := nofun

/-- A reconciliation that is carried out. -/
theorem Kept.reconcile (kept : s.Kept) {sync : Reconciliation} (holds : s.Holds (.sync sync))
    (relayOwner : Option String) :
    ({ s with
      records := s.records.sync sync.listed sync.kept sync.now relayOwner
      permit := none
      synced := some sync
      reservedSince := [] } : RegistryState).Kept := by
  obtain ⟨listed, keeps, deleted⟩ := holds
  refine { kept with created := ?_, deleted := ?_, listed := ?_, others := ?_, holds := nofun }
  · intro id its notDeleted
    refine InstanceRecords.deleteUnkept_ne_none _ (InstanceRecords.upsertAll_ne_none (.inr ?_)) ?_
    · exact kept.created id its notDeleted
    · rw [keeps]
      exact mem_append_right _ (kept.creates id its)
  · intro id its
    have out : id ∉ sync.listed.map (·.id) := by
      rw [listed]
      intro member
      obtain ⟨instance_, among, rfl⟩ := mem_map.mp member
      exact of_decide_eq_true (mem_filter.mp among).2 (kept.deletes _ its)
    have none_ : s.records.upsertAll sync.listed (fun instance_ row =>
        (OwnerChange.standIn relayOwner).apply (row.describe instance_)) id = none :=
      (InstanceRecords.upsertAll_other out).trans (kept.deleted id its)
    change Option.filter _ (s.records.upsertAll sync.listed _ id) = none
    rw [none_]
    rfl
  · intro other is instance_ among notDeleted
    cases is
    have there : instance_.id ∈ sync.listed.map (·.id) := by
      rw [listed]
      exact mem_map_of_mem (mem_filter.mpr ⟨among, decide_eq_true notDeleted⟩)
    refine InstanceRecords.deleteUnkept_ne_none _ (InstanceRecords.upsertAll_ne_none (.inl there)) ?_
    rw [keeps]
    exact mem_append_left _ there
  · intro other is id row there notCreated notListed
    cases is
    rcases (InstanceRecords.deleteUnkept_eq_some.mp there).2 with member | reserved
    · rw [keeps] at member
      rcases mem_append.mp member with among | created
      · rw [listed] at among
        obtain ⟨instance_, filtered, rfl⟩ := mem_map.mp among
        obtain ⟨inSnapshot, notDeleted⟩ := mem_filter.mp filtered
        exact absurd (deleted ▸ notListed instance_ inSnapshot rfl) (of_decide_eq_true notDeleted)
      · exact absurd created notCreated
    · exact .inl reserved

theorem Kept.letGo (kept : s.Kept) : ({ s with permit := none } : RegistryState).Kept := { kept with holds := nofun }

theorem Kept.next (kept : s.Kept) {event : RegistryEvent} (unused : s.unused event = true)
    (next : s.next event = some s') : s'.Kept := by
  cases event with
  | reserve id owner now =>
    cases next
    exact kept.reserve (of_decide_eq_true unused) _
  | begin change =>
    obtain ⟨-, is⟩ := ite_none_right_eq_some.mp next
    cases is
    exact kept.begin unused
  | beginSync snapshot now =>
    obtain ⟨-, is⟩ := ite_none_right_eq_some.mp next
    cases is
    refine { kept with holds := fun holder is => ?_ }
    cases is
    exact ⟨rfl, rfl, rfl⟩
  | carryOut relayOwner =>
    obtain ⟨holder, held, rfl⟩ := map_eq_some_iff.mp next
    have holds := kept.holds holder held
    cases holder with
    | sync sync => exact kept.reconcile holds relayOwner
    | change change =>
      cases change with
      | registerPrepared instance_ owner =>
        obtain ⟨set, unused⟩ := holds.1 instance_.id rfl
        exact kept.create set unused fun row =>
          { (OwnerChange.claim owner).apply (row.describe instance_) with provisioningReservedUntil := none }
      | recordCreated instance_ owner =>
        obtain ⟨set, unused⟩ := holds.1 instance_.id rfl
        exact kept.create set unused fun row => (OwnerChange.claim owner).apply (row.describe instance_)
      | unregister id => exact kept.delete (holds.2 id rfl)
  | fail =>
    obtain ⟨holder, -, rfl⟩ := map_eq_some_iff.mp next
    exact kept.letGo

end

/-! ## Owners in a run -/

variable {owner : String}

theorem ownedBy_claimed (its : row.OwnedBy owner) (claimed : String) :
    ((OwnerChange.claim claimed).apply row).OwnedBy owner := by
  have stays : OwnerChange.chosen? (.claim claimed) = none := rfl
  exact ownedBy_apply its stays

theorem OwnedBy.describe (its : row.OwnedBy owner) (instance_ : DirectoryInstance) :
    (row.describe instance_).OwnedBy owner := its

variable {row' : InstanceRecord}

theorem ownedBy_upsert {records : InstanceRecords} (target : String) (change : InstanceRecord → InstanceRecord)
    (keeps : ∀ row, row.OwnedBy owner → (change row).OwnedBy owner) (is : records id = some row)
    (its : row.OwnedBy owner) (after : records.upsert target change id = some row') :
    row'.OwnedBy owner := by
  by_cases same : id = target
  · rw [same, InstanceRecords.upsert_self, ← same, is] at after
    exact Option.some.inj after ▸ keeps row its
  · rw [InstanceRecords.upsert_other same, is] at after
    exact Option.some.inj after ▸ its

theorem ownedBy_upsertAll {records : InstanceRecords} {instances : List DirectoryInstance}
    {change : DirectoryInstance → InstanceRecord → InstanceRecord}
    (keeps : ∀ instance_ row, row.OwnedBy owner → (change instance_ row).OwnedBy owner)
    (is : records id = some row) (its : row.OwnedBy owner)
    (after : records.upsertAll instances change id = some row') : row'.OwnedBy owner := by
  induction instances generalizing records row with
  | nil => exact Option.some.inj (is.symm.trans after) ▸ its
  | cons instance_ rest ih =>
    have there : records.upsert instance_.id (change instance_) id ≠ none :=
      InstanceRecords.upsert_ne_none (.inr (is ▸ some_ne_none row))
    obtain ⟨next, is'⟩ := ne_none_iff_exists'.mp there
    exact ih is' (ownedBy_upsert _ _ (keeps instance_) is its is') after

/-- No step replaces an owner for good. -/
theorem ownedBy_next {s s' : RegistryState} {event : RegistryEvent} (next : s.next event = some s')
    (is : s.records id = some row) (its : row.OwnedBy owner) (after : s'.records id = some row') :
    row'.OwnedBy owner := by
  have stays : s'.records = s.records → row'.OwnedBy owner := by
    intro same
    rw [same, is] at after
    exact Option.some.inj after ▸ its
  cases event with
  | reserve target claimed now =>
    cases next
    exact ownedBy_upsert target (fun row =>
      { (OwnerChange.claim claimed).apply row with provisioningReservedUntil := some (now + 2 * 60000) })
      (fun row its => ownedBy_claimed its claimed) is its after
  | begin change =>
    obtain ⟨-, is'⟩ := ite_none_right_eq_some.mp next
    cases is'
    exact stays rfl
  | beginSync snapshot now =>
    obtain ⟨-, is'⟩ := ite_none_right_eq_some.mp next
    cases is'
    exact stays rfl
  | carryOut relayOwner =>
    obtain ⟨holder, -, rfl⟩ := map_eq_some_iff.mp next
    cases holder with
    | sync sync =>
      have kept := (InstanceRecords.deleteUnkept_eq_some.mp after).1
      refine ownedBy_upsertAll (fun instance_ row its => ?_) is its kept
      have stays : OwnerChange.chosen? (.standIn relayOwner) = none := rfl
      exact ownedBy_apply (OwnedBy.describe its instance_) stays
    | change change =>
      cases change with
      | registerPrepared instance_ claimed =>
        exact ownedBy_upsert instance_.id (fun row =>
          { (OwnerChange.claim claimed).apply (row.describe instance_) with provisioningReservedUntil := none })
          (fun row its => ownedBy_claimed (OwnedBy.describe its instance_) claimed) is its after
      | recordCreated instance_ claimed =>
        exact ownedBy_upsert instance_.id (fun row => (OwnerChange.claim claimed).apply (row.describe instance_))
          (fun row its => ownedBy_claimed (OwnedBy.describe its instance_) claimed) is its after
      | unregister target =>
        by_cases same : id = target
        · have gone : s.records.unregister target id = none := by
            rw [same]
            exact InstanceRecords.unregister_self _ _
          exact absurd (gone.symm.trans after) nofun
        · have is' := (s.records.unregister_other same).symm.trans after
          exact Option.some.inj (is.symm.trans is') ▸ its
  | fail =>
    obtain ⟨holder, -, rfl⟩ := map_eq_some_iff.mp next
    exact stays rfl

end RegistryState

/-! ## Every run -/

/-- The owners of records, over any order of what befalls them. -/
structure OwnersKept : Prop where
  /-- Only a choice replaces an owner for good. -/
  kept : ∀ (row : InstanceRecord) (owner : String) (change : OwnerChange), row.OwnedBy owner →
    change.chosen? = none → (change.apply row).OwnedBy owner
  /-- The one who created it owns it, unless another was chosen. -/
  settled : ∀ (row : InstanceRecord) (creator : String) (changes : List OwnerChange), row.Unsettled →
    (∀ owner, OwnerChange.claim owner ∈ changes → owner = creator) →
    (changes.foldl OwnerChange.apply row).OwnedAfter creator changes
  /-- The steps of a run keep them. -/
  run : ∀ (s s' : RegistryState) (event : RegistryEvent) (id owner : String) (row row' : InstanceRecord),
    s.next event = some s' → s.records id = some row → row.OwnedBy owner → s'.records id = some row' →
    row'.OwnedBy owner

theorem registry_keeps (s : RegistryState)
    (reached : (registrySystem.restrict fun s event => s.unused event = true).Reachable s) :
    s.KeepsAttempted ∧ OwnersKept := by
  refine ⟨?_, ⟨fun row owner change => ownedBy_apply, fun row creator changes unsettled its => ownedAfter_foldl unsettled its,
    fun s s' event id owner row row' next is its after => RegistryState.ownedBy_next next is its after⟩⟩
  have kept : s.Kept := by
    refine reached.invariant (fun s is => ?_) fun s event s' kept step => kept.next step.1 step.2
    obtain ⟨records, rfl⟩ := is
    exact ⟨⟨nofun, nofun, nofun, nofun⟩, nofun, nofun, nofun⟩
  exact kept.toKeepsAttempted

def survival : DirectoryInstance where
  id := "survival"
  name := [83]
  game := "Minecraft"
  implementation := "Paper"
  version := "1.21"
  connectAddress := "play.example.test:25565"

/-- A server is created as one is deleted, and the snapshot that is reconciled with is older than both. -/
def createsAndDeletes : List RegistryEvent :=
  [.reserve "survival" "user" 1000, .begin (.registerPrepared survival "user"), .carryOut none,
    .begin (.unregister "creative"), .carryOut none,
    .beginSync [{ survival with id := "creative" }, { survival with id := "lobby" }] 500, .carryOut (some "owner")]

def keptOwn (s : RegistryState) : Bool :=
  (s.records "survival").any (·.ownerId = some "user") && (s.records "creative").isNone &&
    (s.records "lobby").any (·.ownerProvisional)

theorem registry_keeps_createsAndDeletes :
    (runAll (fun s event => if RegistryState.unused s event = true then RegistryState.next s event else none) {}
      createsAndDeletes).any keptOwn = true ∧
    ∀ s, runAll (fun s event => if RegistryState.unused s event = true then RegistryState.next s event else none) {}
      createsAndDeletes = some s → s.KeepsAttempted ∧ OwnersKept := by
  refine ⟨by decide, fun s ran => ?_⟩
  exact registry_keeps s ⟨_, _, ⟨_, rfl⟩, System.run_of_guardedRunAll ran⟩

/-- A server's registration fails in the database, and Hearth reconciles once its reservation is over. -/
def registrationFails : List RegistryEvent :=
  [.reserve "survival" "user" 1000, .begin (.registerPrepared survival "user"), .fail, .beginSync [] 200000,
    .carryOut none]

/-- Its record stays, though nobody registered it and no snapshot lists it. -/
def leftOver (s : RegistryState) : Bool :=
  (s.records "survival").any (·.provisioningReservedUntil = some 121000) && s.recordedCreates = [] &&
    s.reservedSince = [] && s.synced.any fun sync => sync.snapshot = [] && sync.now = 200000

theorem registrationFails_leftOver : (runAll
    (fun s event => if RegistryState.unused s event = true then RegistryState.next s event else none) {}
      registrationFails).any leftOver = true := by
  decide

theorem registry_leaves_record : ¬ ∀ s,
    (registrySystem.restrict fun s event => s.unused event = true).Reachable s → s.KeepsOwn := by
  intro all
  have ends := registrationFails_leftOver
  rw [Option.any_eq_true] at ends
  rcases ends with ⟨s, ran, ends⟩
  simp only [leftOver, Bool.and_eq_true, Option.any_eq_true, decide_eq_true_eq] at ends
  rcases ends with ⟨⟨⟨⟨row, there, reserved⟩, creates⟩, since⟩, sync, is, snapshot, now⟩
  have keeps := all s ⟨_, _, ⟨_, rfl⟩, System.run_of_guardedRunAll ran⟩
  have reserves := keeps.others sync is "survival" row there (by rw [creates]; exact not_mem_nil)
    fun instance_ among => absurd (snapshot ▸ among) not_mem_nil
  rcases reserves with ⟨until_, is', later⟩ | later
  · rw [reserved] at is'
    cases is'
    rw [now] at later
    exact absurd later (by decide)
  · rw [since] at later
    exact absurd later not_mem_nil

end Kiln.Hearth
