import Mathlib
import Kiln.Lib.OrderedMap

/-!
# Depth-first search

A search that fails on a cycle or on a node that isn't defined, with marks that its roots share. It succeeds if and only
if every edge leads to a defined node and no node reaches itself.
-/

namespace Kiln.Lib
open List

namespace DepthFirst

variable {ν : Type*} [DecidableEq ν]

inductive VisitError (ν : Type*) where
  | cycle (key : ν)
  | unknown (key : ν)
  deriving DecidableEq

/-- The nodes that aren't being visited. -/
def unvisited (nodes : OrderedMap ν (List ν)) (visiting : List ν) : Nat :=
  nodes.entries.countP fun entry => entry.1 ∉ visiting

variable {nodes : OrderedMap ν (List ν)}

theorem unvisited_lt {visiting : List ν} {key : ν} {children : List ν} (fresh : key ∉ visiting)
    (defined : nodes.get key = some children) :
    unvisited nodes (key :: visiting) < unvisited nodes visiting := by
  have member := OrderedMap.get_eq_some.mp defined
  unfold unvisited
  generalize nodes.entries = entries at member
  induction entries with
  | nil => cases member
  | cons entry entries ih =>
    have fewer : ∀ entries : List (ν × List ν), entries.countP (fun entry => entry.1 ∉ key :: visiting) ≤
        entries.countP fun entry => entry.1 ∉ visiting := by
      intro entries
      refine countP_mono_left fun entry _ outside => ?_
      simp only [mem_cons, not_or, decide_eq_true_eq] at outside ⊢
      exact outside.2
    have rest := fewer entries
    rw [countP_cons, countP_cons]
    rcases mem_cons.mp member with rfl | later
    · rw [if_neg (by simp), if_pos (by simpa using fresh)]
      omega
    have less := ih later
    by_cases outside : entry.1 ∈ visiting
    · rw [if_neg (by simp [outside]), if_neg (by simp [outside])]
      omega
    · by_cases same : entry.1 = key
      · rw [if_neg (by simp [same]), if_pos (by simpa using outside)]
        omega
      · rw [if_pos (by simp [same, outside]), if_pos (by simpa using outside)]
        omega

mutual

/-- Visits a node, unless it's complete: the nodes that are complete then. -/
def visit (nodes : OrderedMap ν (List ν)) (visiting complete : List ν) (key : ν) : Except (VisitError ν) (List ν) :=
  if key ∈ complete then .ok complete
  else if _fresh : key ∈ visiting then .error (.cycle key)
  else match _defined : nodes.get key with
    | none => .error (.unknown key)
    | some children =>
        match visitAll nodes (key :: visiting) complete children with
        | .ok complete => .ok (key :: complete)
        | .error error => .error error
termination_by (unvisited nodes visiting, 0)
decreasing_by exact Prod.Lex.left _ _ (unvisited_lt _fresh _defined)

def visitAll (nodes : OrderedMap ν (List ν)) (visiting complete : List ν) : List ν → Except (VisitError ν) (List ν)
  | [] => .ok complete
  | key :: keys =>
      match visit nodes visiting complete key with
      | .ok complete => visitAll nodes visiting complete keys
      | .error error => .error error
termination_by keys => (unvisited nodes visiting, keys.length + 1)

end

/-- The search from every node. -/
def search (nodes : OrderedMap ν (List ν)) : Except (VisitError ν) (List ν) :=
  visitAll nodes [] [] (nodes.entries.map Prod.fst)

/-! ## What a search finds -/

def Edge (nodes : OrderedMap ν (List ν)) (a b : ν) : Prop := ∃ children, nodes.get a = some children ∧ b ∈ children

/-- A node from which every path ends, at nodes that are defined. -/
inductive Settled (nodes : OrderedMap ν (List ν)) : ν → Prop
  | intro {key : ν} {children : List ν} (defined : nodes.get key = some children)
      (all : ∀ child ∈ children, Settled nodes child) : Settled nodes key

variable {a : ν}

theorem Settled.edge {b : ν} (settled : Settled nodes a) (edge : Edge nodes a b) :
    Settled nodes b := by
  obtain ⟨children, defined, child⟩ := edge
  cases settled with
  | intro defined' all =>
    cases defined.symm.trans defined'
    exact all b child

theorem Settled.defined (settled : Settled nodes a) : (nodes.get a).isSome = true := by
  cases settled with
  | intro defined _ => rw [defined]; rfl

/-- No path leads back to a node where every path ends. -/
theorem Settled.acyclic (settled : Settled nodes a) : ¬ Relation.TransGen (Edge nodes) a a := by
  induction settled with
  | @intro key children defined all ih =>
    intro back
    -- The cycle goes through a child, which then is on a cycle too.
    obtain ⟨child, edge, rest⟩ := Relation.TransGen.head'_iff.mp back
    obtain ⟨children', defined', member⟩ := edge
    cases defined.symm.trans defined'
    exact ih child member (Relation.TransGen.tail' rest ⟨children, defined, member⟩)

section Search

variable {nodes : OrderedMap ν (List ν)} {visiting complete : List ν} {key : ν}

theorem visit_of_complete (done : key ∈ complete) : visit nodes visiting complete key = .ok complete := by
  rw [visit, if_pos done]

theorem visit_of_visiting (new : key ∉ complete) (again : key ∈ visiting) :
    visit nodes visiting complete key = .error (.cycle key) := by
  rw [visit, if_neg new, dif_pos again]

theorem visit_of_unknown (new : key ∉ complete) (fresh : key ∉ visiting) (unknown : nodes.get key = none) :
    visit nodes visiting complete key = .error (.unknown key) := by
  rw [visit, if_neg new, dif_neg fresh]
  split
  · rfl
  · rename_i children defined
    rw [unknown] at defined
    cases defined

theorem visit_of_defined {children : List ν} (new : key ∉ complete) (fresh : key ∉ visiting)
    (defined : nodes.get key = some children) : visit nodes visiting complete key =
      match visitAll nodes (key :: visiting) complete children with
      | .ok complete => .ok (key :: complete)
      | .error error => .error error := by
  rw [visit, if_neg new, dif_neg fresh]
  split
  · rename_i unknown
    rw [defined] at unknown
    cases unknown
  · rename_i children' defined'
    cases defined.symm.trans defined'
    rfl

theorem visitAll_of_ok {complete' keys : List ν} (first : visit nodes visiting complete key = .ok complete') :
    visitAll nodes visiting complete (key :: keys) = visitAll nodes visiting complete' keys := by
  rw [visitAll, first]

variable (nodes)

theorem visit_sound : (∀ (visiting complete : List ν) (key : ν), ∀ complete',
      visit nodes visiting complete key = .ok complete' → (∀ k ∈ complete, Settled nodes k) →
        (∀ k ∈ complete', Settled nodes k) ∧ complete ⊆ complete' ∧ key ∈ complete') ∧
    ∀ (visiting complete keys : List ν), ∀ complete', visitAll nodes visiting complete keys = .ok complete' →
      (∀ k ∈ complete, Settled nodes k) → (∀ k ∈ complete', Settled nodes k) ∧ complete ⊆ complete' ∧ keys ⊆ complete' := by
  apply visit.mutual_induct
  case case1 =>
    intro visiting complete key done complete' result settled
    rw [visit_of_complete done] at result
    cases result
    exact ⟨settled, Subset.refl _, done⟩
  case case2 =>
    intro visiting complete key new again complete' result settled
    rw [visit_of_visiting new again] at result
    cases result
  case case3 =>
    intro visiting complete key new fresh unknown complete' result settled
    rw [visit_of_unknown new fresh unknown] at result
    cases result
  case case4 =>
    intro visiting complete key new fresh children defined complete_ all ih complete' result settled
    rw [visit_of_defined new fresh defined, all] at result
    cases result
    obtain ⟨settled', more, members⟩ := ih complete_ all settled
    refine ⟨forall_mem_cons.mpr ⟨.intro defined ?_, settled'⟩, fun k member => mem_cons_of_mem _ (more member),
      mem_cons_self⟩
    intro child member
    exact settled' child (members member)
  case case5 =>
    intro visiting complete key new fresh children defined error failed ih complete' result settled
    rw [visit_of_defined new fresh defined, failed] at result
    cases result
  case case6 =>
    intro visiting complete complete' result settled
    rw [visitAll] at result
    cases result
    exact ⟨settled, Subset.refl _, nil_subset _⟩
  case case7 =>
    intro visiting complete key keys complete_ first ih ihs complete' result settled
    rw [visitAll_of_ok first] at result
    obtain ⟨settled_, more_, member_⟩ := ih complete_ first settled
    obtain ⟨settled', more, members⟩ := ihs complete' result settled_
    exact ⟨settled', fun k member => more (more_ member), cons_subset.mpr ⟨more member_, members⟩⟩
  case case8 =>
    intro visiting complete key keys error failed ih complete' result settled
    rw [visitAll, failed] at result
    cases result

/-- A settled node is visited without an error, unless it reaches what's being visited. -/
theorem visit_succeeds : (∀ (visiting complete : List ν) (key : ν), Settled nodes key →
      (∀ v ∈ visiting, ¬ Relation.ReflTransGen (Edge nodes) key v) →
        ∃ complete', visit nodes visiting complete key = .ok complete') ∧
    ∀ (visiting complete keys : List ν), (∀ key ∈ keys, Settled nodes key) →
      (∀ key ∈ keys, ∀ v ∈ visiting, ¬ Relation.ReflTransGen (Edge nodes) key v) →
        ∃ complete', visitAll nodes visiting complete keys = .ok complete' := by
  have below : ∀ {visiting : List ν} {key : ν} {children : List ν}, nodes.get key = some children → Settled nodes key →
      (∀ v ∈ visiting, ¬ Relation.ReflTransGen (Edge nodes) key v) →
      (∀ child ∈ children, Settled nodes child) ∧
        ∀ child ∈ children, ∀ v ∈ key :: visiting, ¬ Relation.ReflTransGen (Edge nodes) child v := by
    intro visiting key children defined settled apart
    refine ⟨fun child member => settled.edge ⟨children, defined, member⟩, fun child member v visited reach => ?_⟩
    have edge : Edge nodes key child := ⟨children, defined, member⟩
    rcases mem_cons.mp visited with rfl | earlier
    · exact settled.acyclic (Relation.TransGen.head' edge reach)
    · exact apart v earlier (Relation.ReflTransGen.head edge reach)
  apply visit.mutual_induct
  case case1 =>
    intro visiting complete key done settled apart
    exact ⟨complete, visit_of_complete done⟩
  case case2 =>
    intro visiting complete key new again settled apart
    exact absurd .refl (apart key again)
  case case3 =>
    intro visiting complete key new fresh unknown settled apart
    have defined := settled.defined
    rw [unknown] at defined
    cases defined
  case case4 =>
    intro visiting complete key new fresh children defined complete_ all ih settled apart
    exact ⟨key :: complete_, by rw [visit_of_defined new fresh defined, all]⟩
  case case5 =>
    intro visiting complete key new fresh children defined error failed ih settled apart
    obtain ⟨settled_, apart_⟩ := below defined settled apart
    obtain ⟨complete', all⟩ := ih settled_ apart_
    rw [failed] at all
    cases all
  case case6 =>
    intro visiting complete settled apart
    exact ⟨complete, by rw [visitAll]⟩
  case case7 =>
    intro visiting complete key keys complete_ first ih ihs settled apart
    obtain ⟨complete', rest⟩ := ihs (fun k member => settled k (mem_cons_of_mem _ member))
      (fun k member => apart k (mem_cons_of_mem _ member))
    exact ⟨complete', by rw [visitAll_of_ok first, rest]⟩
  case case8 =>
    intro visiting complete key keys error failed ih settled apart
    obtain ⟨complete', first⟩ := ih (settled key mem_cons_self) (apart key mem_cons_self)
    rw [failed] at first
    cases first

/-- Where no node reaches itself, every path ends, as there are only so many nodes. -/
theorem settled_of_acyclic (closed : ∀ a b, Edge nodes a b → (nodes.get b).isSome = true)
    (acyclic : ∀ a, ¬ Relation.TransGen (Edge nodes) a a) {key : ν} (defined : (nodes.get key).isSome = true) :
    Settled nodes key := by
  have finite : Finite {k // (nodes.get k).isSome = true} := by
    refine Set.Finite.to_subtype (Set.Finite.subset (nodes.entries.map Prod.fst).finite_toSet fun k is => ?_)
    exact OrderedMap.has_iff.mp is
  let later (a b : {k // (nodes.get k).isSome = true}) : Prop := Relation.TransGen (Edge nodes) b.1 a.1
  have trans : IsTrans _ later := ⟨fun _ _ _ ab bc => bc.trans ab⟩
  have irrefl : Std.Irrefl later := ⟨fun a => acyclic a.1⟩
  have wf : WellFounded later := Finite.wellFounded_of_trans_of_irrefl later
  have each : ∀ a : {k // (nodes.get k).isSome = true}, Settled nodes a.1 := by
    intro a
    induction a using wf.induction with
    | h a ih =>
      obtain ⟨children, get⟩ := Option.isSome_iff_exists.mp a.2
      refine .intro get fun child member => ?_
      have edge : Edge nodes a.1 child := ⟨children, get, member⟩
      exact ih ⟨child, closed a.1 child edge⟩ (.single edge)
  exact each ⟨key, defined⟩

/-- A search fails if and only if an edge leads to a node that isn't defined or a node reaches itself. -/
theorem search_ok_iff : (∃ complete, search nodes = .ok complete) ↔
    (∀ a b, Edge nodes a b → (nodes.get b).isSome = true) ∧ ∀ a, ¬ Relation.TransGen (Edge nodes) a a := by
  have defined : ∀ a b, Edge nodes a b → a ∈ nodes.entries.map Prod.fst := by
    intro a b edge
    obtain ⟨children, get, -⟩ := edge
    exact mem_map.mpr ⟨_, OrderedMap.get_eq_some.mp get, rfl⟩
  constructor
  · intro ⟨complete, result⟩
    obtain ⟨settled, -, members⟩ := (visit_sound nodes).2 [] [] _ complete result (fun _ none_ => absurd none_ not_mem_nil)
    have each : ∀ {a b}, Edge nodes a b → Settled nodes a := fun edge => settled _ (members (defined _ _ edge))
    refine ⟨fun a b edge => ((each edge).edge edge).defined, fun a back => ?_⟩
    obtain ⟨b, edge, -⟩ := Relation.TransGen.head'_iff.mp back
    exact (each edge).acyclic back
  · intro ⟨closed, acyclic⟩
    refine (visit_succeeds nodes).2 [] [] _ (fun key member => ?_) (fun _ _ _ none_ => absurd none_ not_mem_nil)
    exact settled_of_acyclic nodes closed acyclic (OrderedMap.has_iff.mpr member)

end Search

end DepthFirst

end Kiln.Lib
