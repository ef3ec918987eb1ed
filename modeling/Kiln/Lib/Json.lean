import Mathlib

/-!
# JSON values and what is read of them

JSON over any type of atoms. An object is the list of its fields, and two values are the same
when every path reads the same from both, whatever the order of their fields.
-/

namespace Kiln.Lib

/-- A JSON value over atoms `α`: what isn't an array or an object. -/
inductive Json (α : Type) where
  | atom (value : α)
  | array (items : List (Json α))
  | object (fields : List (String × Json α))

/-- A step of a path into a value. -/
inductive JsonStep where
  | index (i : Nat)
  | key (name : String)

/-- What is at the end of a path: an atom, an array of some length, or an object. -/
inductive JsonShape (α : Type) where
  | atom (value : α)
  | array (length : Nat)
  | object
  deriving DecidableEq

namespace Json

variable {α : Type}

/-- The value of a field. -/
def field (name : String) : List (String × Json α) → Option (Json α)
  | [] => none
  | entry :: rest => if entry.1 = name then some entry.2 else field name rest

def shape : Json α → JsonShape α
  | atom value => .atom value
  | array items => .array items.length
  | object _ => .object

/-- The part of a value a step leads to. -/
def child : Json α → JsonStep → Option (Json α)
  | array items, .index i => items[i]?
  | object fields, .key name => field name fields
  | _, _ => none

/-- What a path reads. -/
def peek : Json α → List JsonStep → Option (JsonShape α)
  | value, [] => some value.shape
  | value, step :: path => (value.child step).bind (·.peek path)

/-- Two values are the same when every path reads the same from both. -/
def Same (a b : Json α) : Prop :=
  ∀ path, a.peek path = b.peek path

theorem Same.refl (a : Json α) : a.Same a := fun _ => rfl

theorem Same.trans {a b c : Json α} (h : a.Same b) (k : b.Same c) : a.Same c :=
  fun path => (h path).trans (k path)

theorem Same.of_children {a b : Json α} (shapes : a.shape = b.shape)
    (parts : ∀ step, (a.child step = none ∧ b.child step = none) ∨
      ∃ x y, a.child step = some x ∧ b.child step = some y ∧ x.Same y) : a.Same b := by
  intro path
  cases path with
  | nil => simp [peek, shapes]
  | cons step path =>
    rcases parts step with ⟨left, right⟩ | ⟨x, y, left, right, same⟩
    · simp [peek, left, right]
    · simpa [peek, left, right] using same path

theorem Same.array {items others : List (Json α)} (same : List.Forall₂ Same items others) :
    (Json.array items).Same (.array others) := by
  apply Same.of_children
  · simp [shape, same.length_eq]
  intro step
  cases step with
  | key name => exact Or.inl ⟨rfl, rfl⟩
  | index i =>
    by_cases within : i < items.length
    · have within' : i < others.length := same.length_eq ▸ within
      refine Or.inr ⟨items[i], others[i], by simp [child, within], by simp [child, within'], ?_⟩
      exact same.get within within'
    · have beyond : ¬ i < others.length := same.length_eq ▸ within
      exact Or.inl ⟨by simpa [child] using within, by simpa [child] using beyond⟩

variable {fields : List (String × Json α)}

theorem field_isSome {name : String} : (field name fields).isSome ↔ name ∈ fields.map Prod.fst := by
  induction fields with
  | nil => simp [field]
  | cons entry rest ih =>
    by_cases here : entry.1 = name
    · simp [field, here]
    · simp only [field, here, if_false, ih, List.map_cons, List.mem_cons, Ne.symm here, false_or]

theorem field_mem {name : String} {value : Json α} (h : field name fields = some value) : (name, value) ∈ fields := by
  induction fields with
  | nil => cases h
  | cons entry rest ih =>
    unfold field at h
    split at h
    · cases h
      rename_i here
      exact List.mem_cons.mpr (Or.inl (by rw [← here]))
    · exact List.mem_cons_of_mem _ (ih h)

theorem Same.object {others : List (String × Json α)}
    (unique : (fields.map Prod.fst).Nodup) (many : fields.length = others.length)
    (same : ∀ name value, field name fields = some value → ∃ other, field name others = some other ∧ value.Same other) :
    (Json.object fields).Same (.object others) := by
  have shapes : (Json.object fields).shape = (Json.object others).shape := rfl
  apply Same.of_children shapes
  intro step
  cases step with
  | index i => exact Or.inl ⟨rfl, rfl⟩
  | key name =>
    cases found : field name fields with
    | some value =>
      obtain ⟨other, found', equal⟩ := same name value found
      exact Or.inr ⟨value, other, found, found', equal⟩
    | none =>
      refine Or.inl ⟨found, ?_⟩
      -- The names of the one are those of the other: they are as many, and among them.
      have among : fields.map Prod.fst ⊆ others.map Prod.fst := by
        intro name' member
        obtain ⟨value, at_name⟩ := Option.isSome_iff_exists.mp (field_isSome.mpr member)
        obtain ⟨other, found', -⟩ := same name' value at_name
        exact field_isSome.mp (by rw [found']; rfl)
      have all := (unique.subperm among).perm_of_length_le (by simp [many])
      by_contra some_other
      have member : name ∈ others.map Prod.fst :=
        field_isSome.mp (Option.isSome_iff_ne_none.mpr some_other)
      have here := field_isSome.mpr (all.symm.subset member)
      rw [found] at here
      cases here

mutual
/-- Every object in a value names each of its fields once. -/
def WellFormed : Json α → Prop
  | atom _ => True
  | array items => WellFormedItems items
  | object fields => (fields.map Prod.fst).Nodup ∧ WellFormedFields fields

def WellFormedItems : List (Json α) → Prop
  | [] => True
  | item :: rest => WellFormed item ∧ WellFormedItems rest

def WellFormedFields : List (String × Json α) → Prop
  | [] => True
  | (_, value) :: rest => WellFormed value ∧ WellFormedFields rest
end

theorem WellFormedFields.filter (h : WellFormedFields fields) (keep : String × Json α → Bool) :
    WellFormedFields (fields.filter keep) := by
  induction fields with
  | nil => exact h
  | cons entry rest ih =>
    rw [List.filter_cons]
    split
    · exact ⟨h.1, ih h.2⟩
    · exact ih h.2

theorem WellFormed.filter (h : (Json.object fields).WellFormed) (keep : String × Json α → Bool) :
    (Json.object (fields.filter keep)).WellFormed := by
  obtain ⟨unique, values⟩ := h
  exact ⟨unique.sublist (List.filter_sublist.map Prod.fst), values.filter keep⟩

end Json

end Kiln.Lib
