import Mathlib

/-!
# Maps that keep insertion order

A finite map as the list of its entries, oldest first, each key once. Setting a key that is
there keeps its place, and a new key goes last, so that a walk over the entries meets them
in the order their keys were first set.
-/

namespace Kiln.Lib
open List

/-- A finite map with its entries in insertion order. -/
structure OrderedMap (α : Type*) (β : Type*) where
  entries : List (α × β)
  nodup : (entries.map Prod.fst).Nodup

namespace OrderedMap

variable {α β : Type*} [DecidableEq α]

instance [DecidableEq β] : DecidableEq (OrderedMap α β) := fun m n =>
  decidable_of_iff (m.entries = n.entries) (by cases m; cases n; simp)

def empty : OrderedMap α β := ⟨[], nodup_nil⟩

/-- The value of the first entry under a key. -/
def lookup (key : α) : List (α × β) → Option β
  | [] => none
  | entry :: rest => if entry.1 = key then some entry.2 else lookup key rest

def get (m : OrderedMap α β) (key : α) : Option β := lookup key m.entries

def has (m : OrderedMap α β) (key : α) : Bool := (m.get key).isSome

def size (m : OrderedMap α β) : Nat := m.entries.length

/-- Replaces a key's value in place, or appends the key. -/
def put (key : α) (value : β) : List (α × β) → List (α × β)
  | [] => [(key, value)]
  | entry :: rest =>
      if entry.1 = key then (key, value) :: rest else entry :: put key value rest

variable {entries : List (α × β)} {key : α} {value : β}

theorem mem_put_fst {k : α} : k ∈ (put key value entries).map Prod.fst ↔ k = key ∨ k ∈ entries.map Prod.fst := by
  induction entries with
  | nil => simp [put]
  | cons entry rest ih =>
    by_cases same : entry.1 = key
    · subst same; simp [put]
    · simp only [put, same, if_false, map_cons, mem_cons, ih]
      tauto

theorem nodup_put (h : (entries.map Prod.fst).Nodup) : ((put key value entries).map Prod.fst).Nodup := by
  induction entries with
  | nil => simp [put]
  | cons entry rest ih =>
    rw [map_cons, nodup_cons] at h
    by_cases same : entry.1 = key
    · subst same; simpa [put] using h
    · rw [put, if_neg same, map_cons, nodup_cons, mem_put_fst]
      refine ⟨?_, ih h.2⟩
      rintro (equal | member)
      · exact same equal
      · exact h.1 member

def set (m : OrderedMap α β) (key : α) (value : β) : OrderedMap α β :=
  ⟨put key value m.entries, nodup_put m.nodup⟩

def delete (m : OrderedMap α β) (key : α) : OrderedMap α β :=
  ⟨m.entries.filter (fun entry => entry.1 ≠ key), Nodup.sublist (filter_sublist.map Prod.fst) m.nodup⟩

theorem lookup_put (key k : α) (value : β) (entries : List (α × β)) :
    lookup k (put key value entries) = if key = k then some value else lookup k entries := by
  induction entries with
  | nil => simp [put, lookup]
  | cons entry rest ih =>
    by_cases same : entry.1 = key
    · subst same
      by_cases here : entry.1 = k <;> simp [put, lookup, here]
    · by_cases here : entry.1 = k
      · subst here; simp [put, lookup, same, Ne.symm same]
      · simp [put, lookup, same, here, ih]

theorem lookup_filter (key k : α) (entries : List (α × β)) : lookup k (entries.filter (fun entry => entry.1 ≠ key)) =
      if key = k then none else lookup k entries := by
  induction entries with
  | nil => simp [lookup]
  | cons entry rest ih =>
    by_cases same : entry.1 = key
    · simp only [same, ne_eq, not_true_eq_false, decide_false, Bool.false_eq_true,
        not_false_eq_true, filter_cons_of_neg, ih, lookup]
      split <;> simp_all
    · simp only [ne_eq, same, not_false_eq_true, decide_true, filter_cons_of_pos, lookup, ih]
      by_cases here : entry.1 = k
      · simp [here, show ¬ key = k from fun e => same (here.trans e.symm)]
      · simp [here]

@[simp] theorem get_empty (key : α) : (empty : OrderedMap α β).get key = none := rfl

@[simp] theorem get_set (m : OrderedMap α β) (key k : α) (value : β) :
    (m.set key value).get k = if key = k then some value else m.get k :=
  lookup_put key k value m.entries

@[simp] theorem get_delete (m : OrderedMap α β) (key k : α) :
    (m.delete key).get k = if key = k then none else m.get k :=
  lookup_filter key k m.entries

theorem lookup_eq_some (h : (entries.map Prod.fst).Nodup) :
    lookup key entries = some value ↔ (key, value) ∈ entries := by
  induction entries with
  | nil => simp [lookup]
  | cons entry rest ih =>
    rw [map_cons, nodup_cons] at h
    by_cases here : entry.1 = key
    · subst here
      simp only [lookup, if_true, Option.some.injEq, mem_cons]
      constructor
      · rintro rfl; exact Or.inl rfl
      · rintro (equal | member)
        · exact (Prod.ext_iff.mp equal).2.symm
        · exact absurd (mem_map_of_mem (f := Prod.fst) member) h.1
    · simp only [lookup, here, if_false, ih h.2, mem_cons]
      constructor
      · exact Or.inr
      · rintro (rfl | member)
        · exact absurd rfl here
        · exact member

variable {m : OrderedMap α β}

/-- The entries of a map are what it reads. -/
theorem get_eq_some : m.get key = some value ↔ (key, value) ∈ m.entries :=
  lookup_eq_some m.nodup

theorem put_eq_append (fresh : key ∉ entries.map Prod.fst) : put key value entries = entries ++ [(key, value)] := by
  induction entries with
  | nil => rfl
  | cons entry rest ih =>
    rw [map_cons, mem_cons, not_or] at fresh
    rw [put, if_neg (Ne.symm fresh.1), ih fresh.2]
    rfl

theorem put_eq_self (h : lookup key entries = some value) : put key value entries = entries := by
  induction entries with
  | nil => simp [lookup] at h
  | cons entry rest ih =>
    obtain ⟨k, held⟩ := entry
    by_cases same : k = key
    · subst same
      obtain rfl : held = value := by simpa [lookup] using h
      simp [put]
    · rw [lookup, if_neg same] at h
      rw [put, if_neg same, ih h]

/-- Setting a key to what it has changes nothing. -/
theorem set_eq_self (h : m.get key = some value) : m.set key value = m := by
  obtain ⟨entries, nodup⟩ := m
  simp only [set, put_eq_self h]

/-- Deleting a key that isn't there changes nothing. -/
theorem delete_eq_self (h : m.get key = none) : m.delete key = m := by
  have kept : m.entries.filter (fun entry => entry.1 ≠ key) = m.entries := by
    rw [filter_eq_self]
    intro entry listed
    refine decide_eq_true fun same => ?_
    subst same
    have found : m.get entry.1 = some entry.2 := get_eq_some.mpr listed
    rw [h] at found
    cases found
  obtain ⟨entries, nodup⟩ := m
  simp only [delete, kept]

/-- A map that reads nothing is empty. -/
theorem eq_empty (h : ∀ key, m.get key = none) : m = empty := by
  obtain ⟨entries, nodup⟩ := m
  cases entries with
  | nil => rfl
  | cons entry rest =>
    have first := h entry.1
    simp [get, lookup] at first

theorem has_iff : m.has key = true ↔ key ∈ m.entries.map Prod.fst := by
  rw [has, Option.isSome_iff_exists]
  simp [get_eq_some]

/-- A map from its entries, of which the last under a key counts. -/
def ofEntries (entries : List (α × β)) : OrderedMap α β :=
  entries.foldl (fun m entry => m.set entry.1 entry.2) empty

theorem get_foldl_set (entries : List (α × β)) (m : OrderedMap α β) (key : α)
    (distinct : (entries.map Prod.fst).Nodup) :
    (entries.foldl (fun m entry => m.set entry.1 entry.2) m).get key = (lookup key entries).or (m.get key) := by
  induction entries generalizing m with
  | nil => simp [lookup]
  | cons entry rest ih =>
    rw [map_cons, nodup_cons] at distinct
    rw [foldl_cons, ih _ distinct.2, get_set, lookup]
    by_cases here : entry.1 = key
    · subst here
      have none_later : lookup entry.1 rest = none := by
        cases found : lookup entry.1 rest with
        | none => rfl
        | some value =>
          have member := mem_map_of_mem (f := Prod.fst) ((lookup_eq_some distinct.2).mp found)
          exact absurd member distinct.1
      simp [none_later]
    · simp [here]

theorem get_ofEntries (distinct : (entries.map Prod.fst).Nodup) :
    (ofEntries entries).get key = some value ↔ (key, value) ∈ entries := by
  rw [ofEntries, get_foldl_set entries empty key distinct, ← lookup_eq_some distinct]
  simp

/-- Entries under keys that a map doesn't have are added after its own. -/
theorem entries_foldl_set (entries : List (α × β)) (m : OrderedMap α β)
    (distinct : ((m.entries ++ entries).map Prod.fst).Nodup) :
    (entries.foldl (fun m entry => m.set entry.1 entry.2) m).entries = m.entries ++ entries := by
  induction entries generalizing m with
  | nil => simp
  | cons entry rest ih =>
    have fresh : entry.1 ∉ m.entries.map Prod.fst := by
      rw [map_append, map_cons, nodup_append] at distinct
      exact fun member => distinct.2.2 _ member _ mem_cons_self rfl
    have added : (m.set entry.1 entry.2).entries = m.entries ++ [entry] := put_eq_append fresh
    rw [foldl_cons, ih, added, append_assoc]
    · rfl
    · rw [added, append_assoc]
      exact distinct

theorem entries_ofEntries (distinct : (entries.map Prod.fst).Nodup) : (ofEntries entries).entries = entries :=
  entries_foldl_set entries empty distinct

/-- A key set unless it is there. -/
def insertNew (m : OrderedMap α β) (key : α) (value : β) : OrderedMap α β :=
  if m.has key then m else m.set key value

@[simp] theorem get_insertNew (m : OrderedMap α β) (key k : α) (value : β) : (m.insertNew key value).get k =
      if key = k then some ((m.get k).getD value) else m.get k := by
  unfold insertNew has
  by_cases here : key = k
  · subst here
    cases found : m.get key <;> simp [found]
  · rw [if_neg here]
    split
    · rfl
    · rw [get_set, if_neg here]

/-- A key's value written, or its entry removed. -/
def write (m : OrderedMap α β) (key : α) : Option β → OrderedMap α β
  | some value => m.set key value
  | none => m.delete key

@[simp] theorem get_write (m : OrderedMap α β) (key k : α) (value : Option β) :
    (m.write key value).get k = if key = k then value else m.get k := by
  cases value <;> simp [write]

/-- Both maps' entries, the second's winning: `{...a, ...b}`. -/
def spread (a b : OrderedMap α β) : OrderedMap α β :=
  b.entries.foldl (fun m entry => m.set entry.1 entry.2) a

@[simp] theorem get_spread (a b : OrderedMap α β) (key : α) : (a.spread b).get key = (b.get key).or (a.get key) :=
  get_foldl_set b.entries a key b.nodup

/-- The map with each value changed in place. -/
def mapValues (m : OrderedMap α β) (f : α → β → β) : OrderedMap α β :=
  ⟨m.entries.map fun entry => (entry.1, f entry.1 entry.2), by
    rw [map_map]
    exact m.nodup⟩

theorem lookup_mapValues (f : α → β → β) (key : α) (entries : List (α × β)) :
    lookup key (entries.map fun entry => (entry.1, f entry.1 entry.2)) = (lookup key entries).map (f key) := by
  induction entries with
  | nil => rfl
  | cons entry rest ih =>
    by_cases here : entry.1 = key
    · simp [lookup, here]
    · simpa [lookup, here] using ih

@[simp] theorem get_mapValues (m : OrderedMap α β) (f : α → β → β) (key : α) :
    (m.mapValues f).get key = (m.get key).map (f key) :=
  lookup_mapValues f key m.entries

/-- The entries that are kept. -/
def filter (m : OrderedMap α β) (keep : α → β → Bool) : OrderedMap α β :=
  ⟨m.entries.filter fun entry => keep entry.1 entry.2, m.nodup.sublist (filter_sublist.map Prod.fst)⟩

@[simp] theorem get_filter (m : OrderedMap α β) (keep : α → β → Bool) (key : α) :
    (m.filter keep).get key = (m.get key).filter (keep key) := by
  apply Option.ext
  intro value
  rw [get_eq_some, Option.filter_eq_some_iff, get_eq_some]
  simp [filter]

theorem get_filter_of_keeps {keep : α → β → Bool} (keeps : ∀ value, m.get key = some value → keep key value = true) :
    (m.filter keep).get key = m.get key := by
  rw [get_filter]
  cases held : m.get key with
  | none => rfl
  | some value => rw [Option.filter_some, if_pos (keeps value held)]

/-- A key whose value is not kept reads nothing. -/
theorem get_filter_of_drops {keep : α → β → Bool} (drops : ∀ value, m.get key = some value → keep key value = false) :
    (m.filter keep).get key = none := by
  rw [get_filter]
  cases held : m.get key with
  | none => rfl
  | some value => rw [Option.filter_some, if_neg (by simp [drops value held])]

/-! ## Counting entries -/

/-- How many values have a property. -/
def count (m : OrderedMap α β) (p : β → Bool) : Nat := m.entries.countP fun entry => p entry.2

variable {p : β → Bool} {was : β}

theorem countP_put (had : p was = true) (lost : p value = false) (there : lookup key entries = some was) :
    (put key value entries).countP (fun entry => p entry.2) + 1 = entries.countP fun entry => p entry.2 := by
  induction entries with
  | nil => cases there
  | cons entry rest ih =>
    rw [lookup] at there
    split at there
    · rename_i here
      cases there
      rw [put, if_pos here, countP_cons, countP_cons, had, lost]
      simp
    · rename_i elsewhere
      rw [put, if_neg elsewhere, countP_cons, countP_cons, ← ih there]
      omega

/-- A value that loses the property. -/
theorem count_set (there : m.get key = some was) (had : p was = true) (lost : p value = false) :
    (m.set key value).count p + 1 = m.count p :=
  countP_put had lost there

theorem countP_delete (had : p was = true) (distinct : (entries.map Prod.fst).Nodup)
    (there : lookup key entries = some was) :
    (entries.filter fun entry => entry.1 ≠ key).countP (fun entry => p entry.2) + 1 =
      entries.countP fun entry => p entry.2 := by
  induction entries with
  | nil => cases there
  | cons entry rest ih =>
    rw [map_cons, nodup_cons] at distinct
    rw [lookup] at there
    split at there
    · rename_i here
      cases there
      have kept : rest.filter (fun entry => entry.1 ≠ key) = rest := by
        rw [filter_eq_self]
        intro other listed
        refine decide_eq_true fun same => distinct.1 ?_
        exact here.trans same.symm ▸ mem_map_of_mem listed
      rw [filter_cons_of_neg (by simpa using here), kept, countP_cons, had]
      simp
    · rename_i elsewhere
      rw [filter_cons_of_pos (by simpa using elsewhere), countP_cons, countP_cons, ← ih distinct.2 there]
      omega

theorem count_delete (there : m.get key = some was) (had : p was = true) : (m.delete key).count p + 1 = m.count p :=
  countP_delete had m.nodup there

end OrderedMap

end Kiln.Lib
