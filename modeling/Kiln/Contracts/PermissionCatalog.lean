import Mathlib
import Kiln.Contracts.Permissions
import Kiln.Lib.DepthFirst

/-!
# The permission catalog's checks

`validatePermissionCatalog` and `implicationClosure` of packages/contracts/src/access-permissions.ts, for any catalog. A
closure is computed once and kept. Without the checks its recursion may go on for ever, so it's given a depth.
-/

namespace Kiln.Contracts
open Kiln.Lib

namespace PermissionCatalog

def kindName : SelectionKind → String
  | .permission => "permission"
  | .collection => "collection"

/-- The key of a node: `permission:…` or `collection:…` -/
def nodeKey (node : PermissionSelection) : String := kindName node.kind ++ ":" ++ node.key

inductive CatalogError where
  | duplicatePermission (key : String)
  | duplicateCollection (key : String)
  | cycle (key : String)
  | unknownReference (key : String)
  deriving DecidableEq

def CatalogError.message : CatalogError → String
  | .duplicatePermission key => "Duplicate permission: " ++ key
  | .duplicateCollection key => "Duplicate collection: " ++ key
  | .cycle key => "Permission catalog cycle: " ++ key
  | .unknownReference key => "Unknown permission catalog reference: " ++ key

abbrev CatalogNodes := OrderedMap String (List String)

/-- Adds a node with what it refers to, unless its key is taken. -/
def addNode (duplicate : String → CatalogError) (node : PermissionSelection) (children : List PermissionSelection)
    (nodes : CatalogNodes) : Except CatalogError CatalogNodes :=
  if nodes.has (nodeKey node) then .error (duplicate node.key)
  else .ok (nodes.set (nodeKey node) (children.map nodeKey))

def addPermission (nodes : CatalogNodes) (entry : PermissionDefinition) : Except CatalogError CatalogNodes :=
  addNode .duplicatePermission ⟨.permission, entry.key⟩ (entry.implies.map (⟨.permission, ·⟩)) nodes

def addCollection (nodes : CatalogNodes) (entry : PermissionCollection) : Except CatalogError CatalogNodes :=
  addNode .duplicateCollection ⟨.collection, entry.key⟩ entry.selections nodes

def catalogNodes (catalog : List PermissionDefinition) (groups : List PermissionCollection) :
    Except CatalogError CatalogNodes := do
  let nodes ← catalog.foldlM addPermission OrderedMap.empty
  groups.foldlM addCollection nodes

def visitError : DepthFirst.VisitError String → CatalogError
  | .cycle key => .cycle key
  | .unknown key => .unknownReference key

/-- `validatePermissionCatalog` -/
def validatePermissionCatalog (catalog : List PermissionDefinition) (groups : List PermissionCollection) :
    Except CatalogError Unit := do
  let nodes ← catalogNodes catalog groups
  match DepthFirst.search nodes with
  | .ok _ => .ok ()
  | .error error => .error (visitError error)

/-! ## Closures -/

/-- Why a closure isn't returned: the depth doesn't suffice, or a key has no definition. -/
inductive ClosureError where
  | depth
  | undefined
  deriving DecidableEq

/-- The closures that have been computed. -/
abbrev Closures := OrderedMap String (List String)

abbrev ClosureOutcome := Except ClosureError (List String × Closures)

/-- `definitions` -/
def definitionsOf (catalog : List PermissionDefinition) : OrderedMap String PermissionDefinition :=
  .ofEntries (catalog.map fun entry => (entry.key, entry))

/-- `flatMap` of closures -/
def flatMapClosures (closure : String → Closures → ClosureOutcome) : List String → Closures → ClosureOutcome
  | [], closures => .ok ([], closures)
  | key :: keys, closures =>
      match closure key closures with
      | .error error => .error error
      | .ok (first, closures) =>
          match flatMapClosures closure keys closures with
          | .error error => .error error
          | .ok (rest, closures) => .ok (first ++ rest, closures)

/-- `implicationClosure` -/
def implicationClosure (definitions : OrderedMap String PermissionDefinition) : Nat → String → Closures → ClosureOutcome
  | 0, _, _ => .error .depth
  | depth + 1, key, closures =>
      match closures.get key with
      | some cached => .ok (cached, closures)
      | none =>
          match definitions.get key with
          | none => .error .undefined
          | some definition =>
              match flatMapClosures (implicationClosure definitions depth) definition.implies closures with
              | .error error => .error error
              | .ok (implied, closures) =>
                  .ok ((key :: implied).eraseDups, closures.set key (key :: implied).eraseDups)

/-- Closures of keys, one call after the other. -/
def implicationClosures (definitions : OrderedMap String PermissionDefinition) (depth : Nat) :
    List String → Closures → Except ClosureError (List (List String) × Closures)
  | [], closures => .ok ([], closures)
  | key :: keys, closures =>
      match implicationClosure definitions depth key closures with
      | .error error => .error error
      | .ok (first, closures) =>
          match implicationClosures definitions depth keys closures with
          | .error error => .error error
          | .ok (rest, closures) => .ok (first :: rest, closures)

/-! ## Well-formed catalogs -/

section Catalog

variable (catalog : List PermissionDefinition) (groups : List PermissionCollection)

/-- What a permission implies and what a collection has as members. -/
inductive CatalogEdge : PermissionSelection → PermissionSelection → Prop
  | implies {entry : PermissionDefinition} {id : String} (defined : entry ∈ catalog) (implied : id ∈ entry.implies) :
      CatalogEdge ⟨.permission, entry.key⟩ ⟨.permission, id⟩
  | member {entry : PermissionCollection} {child : PermissionSelection} (defined : entry ∈ groups)
      (among : child ∈ entry.selections) : CatalogEdge ⟨.collection, entry.key⟩ child

def Defines (node : PermissionSelection) : Prop :=
  (∃ entry ∈ catalog, node = ⟨.permission, entry.key⟩) ∨ ∃ entry ∈ groups, node = ⟨.collection, entry.key⟩

def Implies (a b : String) : Prop := ∃ entry ∈ catalog, entry.key = a ∧ b ∈ entry.implies

/-- A closure as it's meant to be: the permissions that are reached, each once. -/
def IsClosure (key : String) (result : List String) : Prop :=
  result.Nodup ∧ ∀ id, id ∈ result ↔ Relation.ReflTransGen (Implies catalog) key id

end Catalog

/-! ## The nodes of a catalog -/

theorem nodeKey_injective : Function.Injective nodeKey := by
  intro a b same
  obtain ⟨kind, key⟩ := a
  obtain ⟨kind', key'⟩ := b
  have letters : (nodeKey ⟨kind, key⟩).toList = (nodeKey ⟨kind', key'⟩).toList := congrArg String.toList same
  simp only [nodeKey, String.toList_append] at letters
  cases kind with
  | permission =>
    cases kind' with
    | permission =>
      have keys := List.append_cancel_left letters
      rw [String.toList_injective keys]
    | collection => exact absurd (congrArg List.head? letters) (by simp [kindName])
  | collection =>
    cases kind' with
    | permission => exact absurd (congrArg List.head? letters) (by simp [kindName])
    | collection =>
      have keys := List.append_cancel_left letters
      rw [String.toList_injective keys]

/-- Entries are added until a key comes again. -/
theorem foldlM_addNode {α : Type} (duplicate : String → CatalogError) (node : α → PermissionSelection)
    (children : α → List PermissionSelection) (xs : List α) (nodes : CatalogNodes) :
    match xs.foldlM (fun nodes x => addNode duplicate (node x) (children x) nodes) nodes with
    | .ok nodes' => nodes'.entries = nodes.entries ++ xs.map fun x => (nodeKey (node x), (children x).map nodeKey)
    | .error _ => ¬ ((nodes.entries ++ xs.map fun x => (nodeKey (node x), (children x).map nodeKey)).map Prod.fst).Nodup := by
  induction xs generalizing nodes with
  | nil => exact (List.append_nil _).symm
  | cons x xs ih =>
    rw [List.foldlM_cons, addNode]
    by_cases taken : nodes.has (nodeKey (node x)) = true
    · rw [if_pos taken]
      intro distinct
      rw [List.map_append, List.map_cons, List.map_cons] at distinct
      exact (List.disjoint_of_nodup_append distinct) (OrderedMap.has_iff.mp taken) List.mem_cons_self
    · rw [if_neg taken]
      have fresh : nodeKey (node x) ∉ nodes.entries.map Prod.fst := fun among => taken (OrderedMap.has_iff.mpr among)
      have entries : (nodes.set (nodeKey (node x)) ((children x).map nodeKey)).entries =
          nodes.entries ++ [(nodeKey (node x), (children x).map nodeKey)] := OrderedMap.put_eq_append fresh
      have rest := ih (nodes.set (nodeKey (node x)) ((children x).map nodeKey))
      rw [entries, List.append_assoc, List.singleton_append] at rest
      exact rest

section Nodes

variable (catalog : List PermissionDefinition) (groups : List PermissionCollection)

/-- The nodes of a catalog without duplicates. -/
def catalogEntries : List (String × List String) :=
  catalog.map (fun entry => (nodeKey ⟨.permission, entry.key⟩,
    (entry.implies.map (PermissionSelection.mk .permission ·)).map nodeKey)) ++
  groups.map fun entry => (nodeKey ⟨.collection, entry.key⟩, entry.selections.map nodeKey)

theorem catalogNodes_spec :
    match catalogNodes catalog groups with
    | .ok nodes => nodes.entries = catalogEntries catalog groups
    | .error _ => ¬ ((catalogEntries catalog groups).map Prod.fst).Nodup := by
  have permissions := foldlM_addNode .duplicatePermission (fun entry : PermissionDefinition => ⟨.permission, entry.key⟩)
    (fun entry => entry.implies.map (⟨.permission, ·⟩)) catalog OrderedMap.empty
  rw [catalogNodes]
  cases first : catalog.foldlM addPermission (OrderedMap.empty : CatalogNodes) with
  | error error =>
    simp only [show (fun nodes (entry : PermissionDefinition) => addNode .duplicatePermission ⟨.permission, entry.key⟩
      (entry.implies.map (⟨.permission, ·⟩)) nodes) = addPermission from rfl, first] at permissions
    intro distinct
    rw [catalogEntries, List.map_append] at distinct
    exact permissions distinct.of_append_left
  | ok nodes =>
    simp only [show (fun nodes (entry : PermissionDefinition) => addNode .duplicatePermission ⟨.permission, entry.key⟩
      (entry.implies.map (⟨.permission, ·⟩)) nodes) = addPermission from rfl, first] at permissions
    have collections := foldlM_addNode .duplicateCollection (fun entry : PermissionCollection => ⟨.collection, entry.key⟩)
      (fun entry => entry.selections) groups nodes
    rw [permissions] at collections
    exact collections

theorem nodup_catalogEntries : ((catalogEntries catalog groups).map Prod.fst).Nodup ↔
    (catalog.map (·.key)).Nodup ∧ (groups.map (·.key)).Nodup := by
  have keys : ∀ {α : Type} (kind : SelectionKind) (key : α → String) (xs : List α),
      (xs.map fun x => nodeKey ⟨kind, key x⟩).Nodup ↔ (xs.map key).Nodup := by
    intro α kind key xs
    rw [show (xs.map fun x => nodeKey ⟨kind, key x⟩) = (xs.map key).map fun key => nodeKey ⟨kind, key⟩ by
      rw [List.map_map]; rfl]
    exact List.nodup_map_iff fun a b same => congrArg PermissionSelection.key (nodeKey_injective same)
  rw [catalogEntries, List.map_append, List.map_map, List.map_map, List.nodup_append']
  have permissions := keys .permission PermissionDefinition.key catalog
  have collections := keys .collection PermissionCollection.key groups
  constructor
  · intro ⟨first, second, _⟩
    exact ⟨permissions.mp first, collections.mp second⟩
  intro ⟨first, second⟩
  refine ⟨permissions.mpr first, collections.mpr second, ?_⟩
  intro key permission collection
  obtain ⟨a, -, rfl⟩ := List.mem_map.mp permission
  obtain ⟨b, -, same⟩ := List.mem_map.mp collection
  cases congrArg PermissionSelection.kind (nodeKey_injective same)

variable {catalog groups} {nodes : CatalogNodes} (are : nodes.entries = catalogEntries catalog groups)
include are

theorem edge_iff {s t : String} : DepthFirst.Edge nodes s t ↔
    ∃ a b, s = nodeKey a ∧ t = nodeKey b ∧ CatalogEdge catalog groups a b := by
  constructor
  · intro ⟨children, get, member⟩
    rw [OrderedMap.get_eq_some, are, catalogEntries, List.mem_append, List.mem_map, List.mem_map] at get
    rcases get with ⟨entry, defined, same⟩ | ⟨entry, defined, same⟩
    · cases same
      obtain ⟨child, among, rfl⟩ := List.mem_map.mp member
      obtain ⟨id, implied, rfl⟩ := List.mem_map.mp among
      exact ⟨_, _, rfl, rfl, .implies defined implied⟩
    · cases same
      obtain ⟨child, among, rfl⟩ := List.mem_map.mp member
      exact ⟨_, _, rfl, rfl, .member defined among⟩
  · intro ⟨a, b, source, target, edge⟩
    subst source target
    cases edge with
    | @implies entry id defined implied =>
      refine ⟨_, ?_, List.mem_map_of_mem (List.mem_map_of_mem implied)⟩
      rw [OrderedMap.get_eq_some, are]
      exact List.mem_append_left _ (List.mem_map_of_mem defined)
    | @member entry child defined among =>
      refine ⟨_, ?_, List.mem_map_of_mem among⟩
      rw [OrderedMap.get_eq_some, are]
      exact List.mem_append_right _ (List.mem_map_of_mem defined)

theorem get_isSome_iff {node : PermissionSelection} : (nodes.get (nodeKey node)).isSome = true ↔ Defines catalog groups node := by
  rw [show (nodes.get (nodeKey node)).isSome = nodes.has (nodeKey node) from rfl, OrderedMap.has_iff, are, catalogEntries,
    List.map_append, List.map_map, List.map_map, List.mem_append, List.mem_map, List.mem_map]
  constructor
  · intro found
    rcases found with ⟨entry, member, same⟩ | ⟨entry, member, same⟩
    · exact .inl ⟨entry, member, (nodeKey_injective same).symm⟩
    · exact .inr ⟨entry, member, (nodeKey_injective same).symm⟩
  · intro defines
    rcases defines with ⟨entry, member, rfl⟩ | ⟨entry, member, rfl⟩
    · exact .inl ⟨entry, member, rfl⟩
    · exact .inr ⟨entry, member, rfl⟩

theorem transGen_iff {a b : PermissionSelection} : Relation.TransGen (DepthFirst.Edge nodes) (nodeKey a) (nodeKey b) ↔
    Relation.TransGen (CatalogEdge catalog groups) a b := by
  constructor
  · intro path
    generalize start : nodeKey a = s at path
    generalize stop : nodeKey b = t at path
    induction path generalizing b with
    | single edge =>
      obtain ⟨a', b', source, target, edge'⟩ := (edge_iff are).mp edge
      obtain rfl := nodeKey_injective (start.trans source)
      obtain rfl := nodeKey_injective (stop.trans target)
      exact .single edge'
    | tail _ edge ih =>
      obtain ⟨a', b', source, target, edge'⟩ := (edge_iff are).mp edge
      obtain rfl := nodeKey_injective (stop.trans target)
      exact (ih source.symm).tail edge'
  · intro path
    exact path.lift nodeKey fun _ _ edge => (edge_iff are).mpr ⟨_, _, rfl, rfl, edge⟩

end Nodes

end PermissionCatalog

end Kiln.Contracts
