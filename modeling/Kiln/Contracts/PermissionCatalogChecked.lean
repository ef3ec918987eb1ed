import Kiln.Contracts.PermissionCatalog

/-!
# What the permission catalog's checks accept

The checks accept the well-formed catalogs only, and the closures of an accepted one are computed and are the
reflexive-transitive closures of what it implies.
-/

namespace Kiln.Contracts
open Kiln.Lib OrderedMap

namespace PermissionCatalog

section Checks

variable {catalog : List PermissionDefinition} {groups : List PermissionCollection}

theorem validatePermissionCatalog_eq_ok_iff : validatePermissionCatalog catalog groups = .ok () ↔
    ∃ nodes complete, catalogNodes catalog groups = .ok nodes ∧ DepthFirst.search nodes = .ok complete := by
  rw [validatePermissionCatalog]
  cases added : catalogNodes catalog groups with
  | error error =>
    constructor
    · intro ok
      cases ok
    · rintro ⟨_, _, ok, _⟩
      cases ok
  | ok nodes =>
    simp only [bind, Except.bind]
    cases searched : DepthFirst.search nodes with
    | error error =>
      constructor
      · intro ok
        cases ok
      · rintro ⟨_, _, same, ok⟩
        rw [← Except.ok.inj same, searched] at ok
        cases ok
    | ok complete =>
      constructor
      · intro _
        exact ⟨nodes, complete, rfl, searched⟩
      · intro _
        rfl

/-- A catalog is accepted if and only if it's well formed. -/
theorem accepts_iff : validatePermissionCatalog catalog groups = .ok () ↔
    ((catalog.map (·.key)).Nodup ∧ (groups.map (·.key)).Nodup) ∧
      (∀ a b, CatalogEdge catalog groups a b → Defines catalog groups b) ∧
      ∀ a, ¬ Relation.TransGen (CatalogEdge catalog groups) a a := by
  rw [validatePermissionCatalog_eq_ok_iff, ← nodup_catalogEntries]
  have spec := catalogNodes_spec catalog groups
  cases added : catalogNodes catalog groups with
  | error error =>
    rw [added] at spec
    constructor
    · intro ⟨_, _, ok, _⟩
      cases ok
    · intro ⟨distinct, _⟩
      exact absurd distinct spec
  | ok nodes =>
    rw [added] at spec
    have searched : (∃ nodes' complete, (Except.ok nodes : Except CatalogError CatalogNodes) = .ok nodes' ∧
        DepthFirst.search nodes' = .ok complete) ↔ ∃ complete, DepthFirst.search nodes = .ok complete := by
      constructor
      · intro ⟨nodes', complete, same, ok⟩
        rw [← Except.ok.inj same] at ok
        exact ⟨complete, ok⟩
      · intro ⟨complete, ok⟩
        exact ⟨nodes, complete, rfl, ok⟩
    rw [searched, DepthFirst.search_ok_iff]
    constructor
    · intro ⟨closed, acyclic⟩
      refine ⟨spec ▸ nodes.nodup, fun a b edge => ?_, fun a back => ?_⟩
      · exact (get_isSome_iff spec).mp (closed _ _ ((edge_iff spec).mpr ⟨a, b, rfl, rfl, edge⟩))
      · exact acyclic _ ((transGen_iff spec).mpr back)
    intro ⟨_, closed, acyclic⟩
    constructor
    · intro s t edge
      obtain ⟨a, b, rfl, rfl, edge'⟩ := (edge_iff spec).mp edge
      exact (get_isSome_iff spec).mpr (closed a b edge')
    · intro s back
      obtain ⟨t, first, -⟩ := Relation.TransGen.head'_iff.mp back
      obtain ⟨a, b, rfl, -, -⟩ := (edge_iff spec).mp first
      exact acyclic a ((transGen_iff spec).mp back)

/-- In an accepted catalog every path of implications ends, at definitions. -/
theorem settled_of_accepted (accepted : validatePermissionCatalog catalog groups = .ok ()) :
    ∃ nodes : CatalogNodes, nodes.entries = catalogEntries catalog groups ∧
      ∀ entry ∈ catalog, DepthFirst.Settled nodes (nodeKey ⟨.permission, entry.key⟩) := by
  obtain ⟨nodes, complete, added, searched⟩ := validatePermissionCatalog_eq_ok_iff.mp accepted
  have spec := catalogNodes_spec catalog groups
  rw [added] at spec
  refine ⟨nodes, spec, fun entry member => ?_⟩
  obtain ⟨closed, acyclic⟩ := DepthFirst.search_ok_iff nodes |>.mp ⟨complete, searched⟩
  exact DepthFirst.settled_of_acyclic nodes closed acyclic ((get_isSome_iff spec).mpr (.inl ⟨entry, member, rfl⟩))

end Checks

/-! ## Closures -/

theorem nodup_eraseDups {α : Type} [DecidableEq α] (xs : List α) : xs.eraseDups.Nodup := by
  generalize size : xs.length = n
  induction n using Nat.strong_induction_on generalizing xs with
  | _ n ih =>
    cases xs with
    | nil => exact List.nodup_nil
    | cons x xs =>
      rw [List.eraseDups_cons, List.nodup_cons]
      constructor
      · intro member
        simp at member
      · have fewer : (xs.filter fun b => !b == x).length ≤ xs.length := List.length_filter_le _ _
        rw [List.length_cons] at size
        exact ih _ (by omega) _ rfl

section Closures

variable {catalog : List PermissionDefinition}

def ClosuresHold (catalog : List PermissionDefinition) (closures : Closures) : Prop :=
  ∀ key result, closures.get key = some result → IsClosure catalog key result

/-- What a closure returns where it returns. -/
def Returns (catalog : List PermissionDefinition) (closure : Nat → String → Closures → ClosureOutcome) (key : String) : Prop :=
  ∃ least, ∀ depth, least ≤ depth → ∀ closures, ClosuresHold catalog closures →
    ∃ result closures', closure depth key closures = .ok (result, closures') ∧ IsClosure catalog key result ∧
      ClosuresHold catalog closures'

theorem flatMapClosures_returns {closure : Nat → String → Closures → ClosureOutcome} {keys : List String}
    (each : ∀ key ∈ keys, Returns catalog closure key) : ∃ least, ∀ depth, least ≤ depth → ∀ closures,
      ClosuresHold catalog closures → ∃ results closures', flatMapClosures (closure depth) keys closures =
        .ok (results, closures') ∧ (∀ id, id ∈ results ↔ ∃ key ∈ keys, Relation.ReflTransGen (Implies catalog) key id) ∧
        ClosuresHold catalog closures' := by
  induction keys with
  | nil => exact ⟨0, fun depth _ closures hold => ⟨[], closures, rfl, by simp, hold⟩⟩
  | cons key keys ih =>
    obtain ⟨least, first⟩ := each key List.mem_cons_self
    obtain ⟨least', rest⟩ := ih fun key member => each key (List.mem_cons_of_mem _ member)
    refine ⟨max least least', fun depth enough closures hold => ?_⟩
    obtain ⟨result, closures₁, one, closed, hold₁⟩ := first depth (by omega) closures hold
    obtain ⟨results, closures₂, more, all, hold₂⟩ := rest depth (by omega) closures₁ hold₁
    refine ⟨result ++ results, closures₂, by simp only [flatMapClosures, one, more], fun id => ?_, hold₂⟩
    rw [List.mem_append, closed.2, all]
    constructor
    · intro reached
      rcases reached with here | ⟨key', member, there⟩
      · exact ⟨key, List.mem_cons_self, here⟩
      · exact ⟨key', List.mem_cons_of_mem _ member, there⟩
    · intro ⟨key', member, there⟩
      rcases List.mem_cons.mp member with rfl | later
      · exact .inl there
      · exact .inr ⟨key', later, there⟩

theorem get_definitionsOf (distinct : (catalog.map (·.key)).Nodup) {entry : PermissionDefinition} (member : entry ∈ catalog) :
    (definitionsOf catalog).get entry.key = some entry := by
  rw [definitionsOf, get_ofEntries]
  · exact List.mem_map.mpr ⟨entry, member, rfl⟩
  · rw [List.map_map]
    exact distinct

/-- The closure of a permission from which every path ends is computed, whatever has been computed before. -/
theorem implicationClosure_returns {groups : List PermissionCollection} {nodes : CatalogNodes}
    (are : nodes.entries = catalogEntries catalog groups) (distinct : (catalog.map (·.key)).Nodup) {key : String}
    (settled : DepthFirst.Settled nodes (nodeKey ⟨.permission, key⟩)) :
    Returns catalog (implicationClosure (definitionsOf catalog)) key := by
  generalize node : nodeKey ⟨.permission, key⟩ = s at settled
  induction settled generalizing key with
  | @intro s children defined _ ih =>
    subst node
    -- The node's children are what its definition implies.
    obtain ⟨entry, member, named, rfl⟩ : ∃ entry ∈ catalog, entry.key = key ∧
        children = (entry.implies.map (PermissionSelection.mk .permission ·)).map nodeKey := by
      rw [get_eq_some, are, catalogEntries, List.mem_append, List.mem_map, List.mem_map] at defined
      rcases defined with ⟨entry, member, same⟩ | ⟨entry, member, same⟩
      · obtain ⟨first, second⟩ := Prod.mk.inj same
        exact ⟨entry, member, congrArg PermissionSelection.key (nodeKey_injective first), second.symm⟩
      · cases congrArg PermissionSelection.kind (nodeKey_injective (Prod.mk.inj same).1)
    subst named
    have implied : ∀ id ∈ entry.implies, Returns catalog (implicationClosure (definitionsOf catalog)) id := by
      intro id among
      exact ih _ (List.mem_map_of_mem (List.mem_map_of_mem among)) rfl
    obtain ⟨least, rest⟩ := flatMapClosures_returns implied
    refine ⟨least + 1, fun depth enough closures hold => ?_⟩
    obtain ⟨depth, rfl⟩ : ∃ less, depth = less + 1 := ⟨depth - 1, by omega⟩
    rw [implicationClosure]
    cases cached : closures.get entry.key with
    | some result => exact ⟨result, closures, rfl, hold _ _ cached, hold⟩
    | none =>
      obtain ⟨results, closures', more, all, hold'⟩ := rest depth (by omega) closures hold
      simp only [get_definitionsOf distinct member, more]
      have closed : IsClosure catalog entry.key (entry.key :: results).eraseDups := by
        refine ⟨nodup_eraseDups _, fun id => ?_⟩
        rw [List.mem_eraseDups, List.mem_cons, all]
        constructor
        · intro reached
          rcases reached with rfl | ⟨child, among, there⟩
          · exact .refl
          · exact .head ⟨entry, member, rfl, among⟩ there
        · intro path
          rcases Relation.ReflTransGen.cases_head path with rfl | ⟨child, ⟨entry', member', named, among⟩, there⟩
          · exact .inl rfl
          · obtain rfl : entry' = entry := List.inj_on_of_nodup_map distinct member' member named
            exact .inr ⟨child, among, there⟩
      refine ⟨_, _, rfl, closed, fun key result get => ?_⟩
      rw [get_set] at get
      by_cases same : entry.key = key
      · rw [if_pos same] at get
        cases get
        exact same ▸ closed
      · rw [if_neg same] at get
        exact hold' key result get

theorem implicationClosures_return {keys : List String}
    (each : ∀ key ∈ keys, Returns catalog (implicationClosure (definitionsOf catalog)) key) :
    ∃ least, ∀ depth, least ≤ depth → ∀ closures, ClosuresHold catalog closures →
      ∃ results closures', implicationClosures (definitionsOf catalog) depth keys closures = .ok (results, closures') ∧
        List.Forall₂ (IsClosure catalog) keys results := by
  induction keys with
  | nil => exact ⟨0, fun depth _ closures _ => ⟨[], closures, rfl, .nil⟩⟩
  | cons key keys ih =>
    obtain ⟨least, first⟩ := each key List.mem_cons_self
    obtain ⟨least', rest⟩ := ih fun key member => each key (List.mem_cons_of_mem _ member)
    refine ⟨max least least', fun depth enough closures hold => ?_⟩
    obtain ⟨result, closures₁, one, closed, hold₁⟩ := first depth (by omega) closures hold
    obtain ⟨results, closures₂, more, all⟩ := rest depth (by omega) closures₁ hold₁
    exact ⟨result :: results, closures₂, by simp only [implicationClosures, one, more], .cons closed all⟩

end Closures

/-- The checks throw if and only if something's defined twice, a reference leads nowhere or there's a cycle. The closures
of an accepted catalog, in whatever order they're asked for, are returned from some depth on, and are what's implied. -/
theorem validatePermissionCatalog_exact (catalog : List PermissionDefinition) (groups : List PermissionCollection) :
    ((∃ error, validatePermissionCatalog catalog groups = .error error) ↔
      (¬ (catalog.map (·.key)).Nodup ∨ ¬ (groups.map (·.key)).Nodup) ∨
        (∃ a b, CatalogEdge catalog groups a b ∧ ¬ Defines catalog groups b) ∨
        ∃ a, Relation.TransGen (CatalogEdge catalog groups) a a) ∧
    (validatePermissionCatalog catalog groups = .ok () → ∀ keys : List String, (∀ key ∈ keys, key ∈ catalog.map (·.key)) →
      ∃ least, ∀ depth, least ≤ depth → ∃ results closures,
        implicationClosures (definitionsOf catalog) depth keys empty = .ok (results, closures) ∧
          List.Forall₂ (IsClosure catalog) keys results) := by
  constructor
  · have refused : (∃ error, validatePermissionCatalog catalog groups = .error error) ↔
        ¬ validatePermissionCatalog catalog groups = .ok () := by
      cases validatePermissionCatalog catalog groups with
      | error error =>
        constructor
        · intro _ ok
          cases ok
        · intro _
          exact ⟨error, rfl⟩
      | ok _ =>
        constructor
        · intro ⟨_, failed⟩
          cases failed
        · intro other
          exact absurd rfl other
    rw [refused, accepts_iff]
    simp only [not_and_or, not_forall, not_not, exists_prop]
  · intro accepted keys defined
    obtain ⟨nodes, are, settled⟩ := settled_of_accepted accepted
    have distinct := (accepts_iff.mp accepted).1.1
    have each : ∀ key ∈ keys, Returns catalog (implicationClosure (definitionsOf catalog)) key := by
      intro key member
      obtain ⟨entry, among, rfl⟩ := List.mem_map.mp (defined key member)
      exact implicationClosure_returns are distinct (settled entry among)
    obtain ⟨least, all⟩ := implicationClosures_return each
    exact ⟨least, fun depth enough => all depth enough empty fun key result get => by cases get⟩

/-- A permission that implies two, one of which implies the other, and a collection of the first. -/
def diamond : List PermissionDefinition :=
  [⟨"files.write", "files", .instance', [.instance'], ["files.read", "overview"], []⟩,
    ⟨"files.read", "files", .instance', [.instance'], ["overview"], []⟩,
    ⟨"overview", "overview", .instance', [.instance'], [], []⟩]

def diamondGroups : List PermissionCollection := [⟨"files.all", [.instance'], [⟨.permission, "files.write"⟩], none⟩]

theorem diamond_nodes : catalogNodes diamond diamondGroups = .ok ⟨catalogEntries diamond diamondGroups, by decide⟩ := rfl

theorem diamond_accepted : validatePermissionCatalog diamond diamondGroups = .ok () := by
  have searched : DepthFirst.search (⟨catalogEntries diamond diamondGroups, by decide⟩ : CatalogNodes) =
      .ok ["collection:files.all", "permission:files.write", "permission:files.read", "permission:overview"] := by
    simp [DepthFirst.search, DepthFirst.visitAll, DepthFirst.visit, OrderedMap.get, lookup, catalogEntries,
      diamond, diamondGroups, nodeKey, kindName]
  exact validatePermissionCatalog_eq_ok_iff.mpr ⟨_, _, diamond_nodes, searched⟩

theorem validatePermissionCatalog_exact_at_diamond : ∃ least, ∀ depth, least ≤ depth → ∃ results closures,
    implicationClosures (definitionsOf diamond) depth ["overview", "files.write"] empty = .ok (results, closures) ∧
      List.Forall₂ (IsClosure diamond) ["overview", "files.write"] results :=
  (validatePermissionCatalog_exact diamond diamondGroups).2 diamond_accepted _ (by decide)

end PermissionCatalog

end Kiln.Contracts
