import Mathlib
import Kiln.Lib.Partial
import Kiln.Relay.BrowserCapability

/-!
# Permissions and what a selection of them expands to

`packages/contracts/src/access-permissions.ts`: permissions and collections of them, and the
permissions that selections give at a scope. The catalog itself is a parameter: nothing here
depends on which permissions there are. Labels and descriptions are left out.
-/

namespace Kiln.Contracts
open Kiln.Lib List

/-- `PermissionScopeType` (`access-permissions.ts:3-10`). -/
inductive PermissionScopeType where
  | relay
  | instance'
  | database
  | app
  deriving DecidableEq, Repr

/-- How a scope type is written. -/
def PermissionScopeType.name : PermissionScopeType → String
  | .relay => "relay"
  | .instance' => "instance"
  | .database => "database"
  | .app => "app"

/-- `PermissionFamily` (`access-permissions.ts:121-126`). -/
inductive PermissionFamily where
  | relay
  | instance'
  | database
  | app
  | shared
  deriving DecidableEq, Repr

inductive SelectionKind where
  | permission
  | collection
  deriving DecidableEq, Repr

/-- `PermissionSelection` (`access-permissions.ts:17-26`). -/
structure PermissionSelection where
  kind : SelectionKind
  key : String
  deriving DecidableEq, Repr

/-- `PermissionDefinition` (`access-permissions.ts:128-138`). -/
structure PermissionDefinition where
  key : String
  block : String
  family : PermissionFamily
  scopeTypes : List PermissionScopeType
  implies : List String := []
  supportedCapabilities : List String := []
  deriving DecidableEq, Repr

/-- `PermissionCollection` (`access-permissions.ts:139-149`), and a preset that is built in. -/
structure PermissionCollection where
  key : String
  scopeTypes : List PermissionScopeType
  selections : List PermissionSelection
  childScope : Option PermissionScopeType := none
  deriving DecidableEq, Repr

/-- The length `permissionSelectionSchema` wants of a key (`access-permissions.ts:20`). -/
def keyFits (key : String) : Bool :=
  1 ≤ Kiln.Relay.utf16Length key && Kiln.Relay.utf16Length key ≤ 128

/-- `permissionSelectionsSchema.max` (`access-permissions.ts:25`). -/
def maxSelections : Nat := 256

/-- The entries of the catalog. -/
structure CatalogEntries where
  definitions : List PermissionDefinition
  collections : List PermissionCollection
  builtins : List PermissionCollection
  relayScopeChildVisibility : List (String × List String)
  deriving DecidableEq, Repr

namespace CatalogEntries

variable (catalog : CatalogEntries)

/-- `accessPermissions`, in the catalog's order. -/
def accessPermissions : List String := catalog.definitions.map (·.key)

def definition (key : String) : Option PermissionDefinition :=
  catalog.definitions.find? (·.key = key)

def collection (key : String) : Option PermissionCollection :=
  catalog.collections.find? (·.key = key)

/-- `accessPermissionSupported` (`access-permissions.ts:672-686`). -/
def accessPermissionSupported (permission : String) (scopeType : PermissionScopeType)
    (capabilities : Option (List String)) : Bool :=
  match catalog.definition permission with
  | none => false
  | some definition =>
      definition.scopeTypes.contains scopeType &&
        match capabilities with
        | none => true
        | some capabilities => definition.supportedCapabilities.all (capabilities.contains ·)

/-- `implicationClosure` (`access-permissions.ts:833-846`). The catalog has no cycle, so that no chain of implications
is longer than it. -/
def implicationClosure : Nat → String → List String
  | 0, _ => []
  | depth + 1, key =>
      key :: (((catalog.definition key).map (·.implies)).getD []).flatMap (implicationClosure depth)

/-- What a permission adds where it is supported (`access-permissions.ts:872-881`). -/
def supportedAdds (definition : PermissionDefinition) (selectedScope : PermissionScopeType) :
    List String :=
  catalog.implicationClosure catalog.definitions.length definition.key ++
    if definition.family = .shared then
      (selectedScope.name ++ ".read") ::
        if selectedScope = .relay then
          ((catalog.relayScopeChildVisibility.find? (·.1 = definition.block)).map (·.2)).getD []
        else []
    else []

/-- `expand` in `expandPermissionSelections` (`access-permissions.ts:858-894`): what one selection adds, or nothing
where it throws. Collections nest no deeper than there are collections. -/
def expand (capabilities : Option (List String)) :
    Nat → PermissionSelection → PermissionScopeType → Bool → Option (List String)
  | 0, _, _, _ => none
  | depth + 1, item, selectedScope, nested =>
      match item.kind with
      | .permission =>
          match catalog.definition item.key with
          | none => none
          | some definition =>
              if catalog.accessPermissionSupported item.key selectedScope capabilities then
                some (catalog.supportedAdds definition selectedScope)
              else if nested then some []
              else none
      | .collection =>
          match catalog.collection item.key with
          | none => none
          | some group =>
              if group.scopeTypes.contains selectedScope then
                (group.selections.mapM fun child =>
                  expand capabilities depth child (group.childScope.getD selectedScope) true).map
                    flatten
              else if nested then some []
              else none

/-- What a selection that was made at a scope adds there. -/
def adds (scopeType : PermissionScopeType) (capabilities : Option (List String))
    (item : PermissionSelection) : Option (List String) :=
  catalog.expand capabilities (catalog.collections.length + 1) item scopeType false

/-- Any assignment at Relay scope reveals the Relay (`access-permissions.ts:896-898`). -/
def revealed (scopeType : PermissionScopeType) (result : List String) : List String :=
  let result :=
    if scopeType = .relay && !result.isEmpty then result ++ ["relay.read"] else result
  catalog.accessPermissions.filter (result.contains ·)

/-- `permissionSelectionsSchema.parse` accepts the selections (`access-permissions.ts:17-25`). -/
def parses (selections : List PermissionSelection) : Bool :=
  selections.length ≤ maxSelections && selections.all (keyFits ·.key)

/-- `expandPermissionSelections` (`access-permissions.ts:850-899`). -/
def expandPermissionSelections (selections : List PermissionSelection)
    (scopeType : PermissionScopeType) (capabilities : Option (List String)) :
    Option (List String) :=
  if parses selections then
    (selections.mapM (catalog.adds scopeType capabilities)).map fun lists =>
      catalog.revealed scopeType lists.flatten
  else none

/-- `builtinPresetSelections` (`access-permissions.ts:961-975`). -/
def builtinPresetSelections (key : String) (scopeType : PermissionScopeType) :
    Option (List PermissionSelection) :=
  (catalog.builtins.find? (·.key = key)).map fun preset =>
    preset.selections.filter fun entry =>
      match entry.kind with
      | .permission => catalog.accessPermissionSupported entry.key scopeType none
      | .collection =>
          ((catalog.collection entry.key).map (·.scopeTypes.contains scopeType)).getD false

/-- `expandStoredSelections` (`resource-permissions.ts:204-215`). Which of two equal selections
`deduplicatePermissionSelections` keeps makes no difference. -/
def expandStoredSelections (selections : List PermissionSelection)
    (scopeType : PermissionScopeType) (capabilities : Option (List String)) :
    Option (List String) :=
  let supported := selections.dedup.filter fun selection =>
    selection.kind = .collection ||
      catalog.accessPermissionSupported selection.key scopeType capabilities
  catalog.expandPermissionSelections supported scopeType capabilities

end CatalogEntries

/-- The catalog, of which `permissionSelectionsSchema` asks nothing it hasn't: it has no more entries than a list of
selections may have, their keys fit, and all permissions may be selected everywhere. -/
structure PermissionCatalog extends CatalogEntries where
  few : definitions.length + collections.length ≤ maxSelections
  definitionsFit : ∀ definition ∈ definitions, keyFits definition.key = true
  collectionsFit : ∀ group ∈ collections, keyFits group.key = true
  all : ∀ scopeType, (toCatalogEntries.adds scopeType none ⟨.collection, "all"⟩).isSome = true

/-! ## What one selection gives -/

variable {catalog : PermissionCatalog} {scopeType : PermissionScopeType}
  {capabilities : Option (List String)} {selections : List PermissionSelection}

/-- A selection gives a permission at a scope: alone, it expands to it. -/
def PermissionCatalog.Gives (catalog : PermissionCatalog) (scopeType : PermissionScopeType)
    (capabilities : Option (List String)) (item : PermissionSelection) (permission : String) :
    Prop :=
  ∃ added, catalog.adds scopeType capabilities item = some added ∧ permission ∈ catalog.revealed scopeType added

variable {permission : String}

theorem mem_revealed {result : List String} :
    permission ∈ catalog.revealed scopeType result ↔ permission ∈ catalog.accessPermissions ∧
        (permission ∈ result ∨ scopeType = .relay ∧ result ≠ [] ∧ permission = "relay.read") := by
  rw [CatalogEntries.revealed, mem_filter, contains_iff_mem]
  by_cases shown : scopeType = .relay ∧ result ≠ []
  · simp [shown]
  · simp only [Bool.and_eq_true, decide_eq_true_eq, Bool.not_eq_true', isEmpty_eq_false_iff, shown, if_false]
    tauto

variable {permissions : List String}

theorem mem_expandPermissionSelections
    (expands : catalog.expandPermissionSelections selections scopeType capabilities = some permissions) :
    permission ∈ permissions ↔ ∃ item ∈ selections, catalog.Gives scopeType capabilities item permission := by
  rw [CatalogEntries.expandPermissionSelections, Option.ite_none_right_eq_some, Option.map_eq_some_iff] at expands
  obtain ⟨-, lists, run, rfl⟩ := expands
  rw [mem_revealed]
  constructor
  · rintro ⟨known, listed | ⟨atRelay, some', rfl⟩⟩
    · obtain ⟨added, member, inside⟩ := mem_flatten.mp listed
      obtain ⟨item, chosen, adds⟩ := (mem_of_mapM run).mp member
      exact ⟨item, chosen, added, adds, mem_revealed.mpr ⟨known, Or.inl inside⟩⟩
    · -- some selection added something, and it alone reveals the Relay too
      obtain ⟨other, listed⟩ := exists_mem_of_ne_nil _ some'
      obtain ⟨added, member, inside⟩ := mem_flatten.mp listed
      obtain ⟨item, chosen, adds⟩ := (mem_of_mapM run).mp member
      exact ⟨item, chosen, added, adds, mem_revealed.mpr ⟨known, Or.inr ⟨atRelay, ne_nil_of_mem inside, rfl⟩⟩⟩
  · rintro ⟨item, chosen, added, adds, given⟩
    have member : added ∈ lists := (mem_of_mapM run).mpr ⟨item, chosen, adds⟩
    obtain ⟨known, inside | ⟨atRelay, some', rfl⟩⟩ := mem_revealed.mp given
    · exact ⟨known, Or.inl (mem_flatten.mpr ⟨added, member, inside⟩)⟩
    · obtain ⟨other, inside⟩ := exists_mem_of_ne_nil _ some'
      exact ⟨known, Or.inr ⟨atRelay, ne_nil_of_mem (mem_flatten.mpr ⟨added, member, inside⟩), rfl⟩⟩

variable {item : PermissionSelection}

/-- An explicit permission that isn't supported adds nothing, being refused. -/
theorem adds_of_unsupported (explicit : item.kind = .permission)
    (unsupported : catalog.accessPermissionSupported item.key scopeType capabilities = false) :
    catalog.adds scopeType capabilities item = none := by
  rw [CatalogEntries.adds, CatalogEntries.expand, explicit]
  dsimp only
  split
  · rfl
  · simp [unsupported]

/-- The stored expansion adds up too: what it drops gives nothing. -/
theorem mem_expandStoredSelections
    (expands : catalog.expandStoredSelections selections scopeType capabilities = some permissions) :
    permission ∈ permissions ↔ ∃ item ∈ selections, catalog.Gives scopeType capabilities item permission := by
  rw [CatalogEntries.expandStoredSelections] at expands
  rw [mem_expandPermissionSelections expands]
  constructor
  · rintro ⟨item, kept, gives⟩
    exact ⟨item, mem_dedup.mp (mem_filter.mp kept).1, gives⟩
  rintro ⟨item, chosen, gives⟩
  refine ⟨item, mem_filter.mpr ⟨mem_dedup.mpr chosen, ?_⟩, gives⟩
  rw [Bool.or_eq_true, decide_eq_true_eq]
  by_contra dropped
  push Not at dropped
  have explicit : item.kind = .permission := by
    cases kind : item.kind
    · rfl
    · exact absurd kind dropped.1
  obtain ⟨added, adds, -⟩ := gives
  rw [adds_of_unsupported explicit (Bool.eq_false_iff.mpr dropped.2)] at adds
  cases adds

/-! ## What was accepted once still expands -/

theorem expand_isSome_congr {depth : Nat} {nested : Bool}
    (grouped : item.kind = .collection ∨ nested = true) (others : Option (List String)) :
    (catalog.expand capabilities depth item scopeType nested).isSome =
      (catalog.expand others depth item scopeType nested).isSome := by
  induction depth generalizing item scopeType nested with
  | zero => rfl
  | succ depth ih =>
    simp only [CatalogEntries.expand]
    cases kind : item.kind with
    | permission =>
      have nested : nested = true := grouped.resolve_left (by simp [kind])
      cases catalog.definition item.key <;> simp only [nested, if_true]
      split <;> split <;> rfl
    | collection =>
      cases catalog.collection item.key with
      | none => rfl
      | some group =>
        dsimp only
        split
        · rw [Option.isSome_map, Option.isSome_map, Bool.eq_iff_iff, mapM_isSome, mapM_isSome]
          constructor
          · intro defined child member
            rw [← ih (Or.inr rfl)]
            exact defined child member
          · intro defined child member
            rw [ih (Or.inr rfl)]
            exact defined child member
        · rfl

/-- A stored selection expands at its scope, whatever the capabilities there become: an explicit permission may be
dropped, and a collection is one that expands. -/
def PermissionCatalog.Accepts (catalog : PermissionCatalog) (scopeType : PermissionScopeType)
    (item : PermissionSelection) : Prop :=
  item.kind = .collection → (catalog.adds scopeType none item).isSome = true

theorem accepts_all : catalog.Accepts scopeType ⟨.collection, "all"⟩ := fun _ =>
  catalog.all scopeType

theorem accepts_of_expands (expands : catalog.expandPermissionSelections selections scopeType capabilities =
      some permissions) : ∀ item ∈ selections, catalog.Accepts scopeType item := by
  rw [CatalogEntries.expandPermissionSelections, Option.ite_none_right_eq_some, Option.map_eq_some_iff] at expands
  obtain ⟨-, lists, run, -⟩ := expands
  intro item member grouped
  have defined := mapM_isSome.mp (by rw [run]; rfl) item member
  rwa [CatalogEntries.adds, expand_isSome_congr (Or.inl grouped) none] at defined

/-- The keys the catalog knows. -/
def PermissionCatalog.known (catalog : PermissionCatalog) : List PermissionSelection :=
  catalog.definitions.map (⟨.permission, ·.key⟩) ++ catalog.collections.map (⟨.collection, ·.key⟩)

theorem keyFits_of_known (known : item ∈ catalog.known) : keyFits item.key = true := by
  rcases mem_append.mp known with known | known
  · obtain ⟨definition, member, rfl⟩ := mem_map.mp known
    exact catalog.definitionsFit definition member
  · obtain ⟨group, member, rfl⟩ := mem_map.mp known
    exact catalog.collectionsFit group member

theorem known_of_supported (explicit : item.kind = .permission)
    (supported : catalog.accessPermissionSupported item.key scopeType capabilities = true) :
    item ∈ catalog.known ∧ (catalog.adds scopeType capabilities item).isSome = true := by
  cases found : catalog.definition item.key with
  | none => simp [CatalogEntries.accessPermissionSupported, found] at supported
  | some definition =>
    refine ⟨mem_append_left _ (mem_map.mpr ⟨definition, mem_of_find?_eq_some found, ?_⟩), ?_⟩
    · have sameKey : definition.key = item.key := by simpa using find?_some found
      rw [sameKey, ← explicit]
    · simp [CatalogEntries.adds, CatalogEntries.expand, explicit, found, supported]

theorem known_of_accepted (grouped : item.kind = .collection) (accepted : catalog.Accepts scopeType item) :
    item ∈ catalog.known ∧ (catalog.adds scopeType capabilities item).isSome = true := by
  have defined := accepted grouped
  refine ⟨mem_append_right _ ?_, ?_⟩
  · cases found : catalog.collection item.key with
    | none => simp [CatalogEntries.adds, CatalogEntries.expand, grouped, found] at defined
    | some group =>
      have sameKey : group.key = item.key := by simpa using find?_some found
      exact mem_map.mpr ⟨group, mem_of_find?_eq_some found, by rw [sameKey, ← grouped]⟩
  · rwa [CatalogEntries.adds, expand_isSome_congr (Or.inl grouped) none]

theorem expandStoredSelections_isSome (accepted : ∀ item ∈ selections, catalog.Accepts scopeType item) :
    (catalog.expandStoredSelections selections scopeType capabilities).isSome = true := by
  rw [CatalogEntries.expandStoredSelections]
  generalize kept : (selections.dedup.filter _) = supported
  have each : ∀ item ∈ supported, item ∈ catalog.known ∧ (catalog.adds scopeType capabilities item).isSome = true := by
    intro item member
    rw [← kept, mem_filter, mem_dedup, Bool.or_eq_true, decide_eq_true_eq] at member
    cases kind : item.kind with
    | permission =>
      exact known_of_supported kind (member.2.resolve_left (by simp [kind]))
    | collection => exact known_of_accepted kind (accepted item member.1)
  have distinct : supported.Nodup := by
    rw [← kept]
    exact (nodup_dedup _).filter _
  have short : supported.length ≤ maxSelections := by
    have within := (subperm_of_subset distinct fun item member => (each item member).1).length_le
    rw [PermissionCatalog.known, length_append, length_map, length_map] at within
    have few := catalog.few
    omega
  have parsed : CatalogEntries.parses supported = true := by
    rw [CatalogEntries.parses, Bool.and_eq_true, decide_eq_true_eq, all_eq_true]
    exact ⟨short, fun item member => keyFits_of_known (each item member).1⟩
  rw [CatalogEntries.expandPermissionSelections, if_pos parsed, Option.isSome_map, mapM_isSome]
  exact fun item member => (each item member).2

end Kiln.Contracts
