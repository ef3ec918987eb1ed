import Mathlib

/-!
# Readers

What reads a value off the front of a list, or fails. `Reads` says what a reader reads and what it
leaves; its rules follow how readers are put together, so that a reader is compared with what writes
for it, or with another reader, one part at a time.
-/

namespace Kiln.Lib
open List

/-- What reads a value off the front of a list, or fails. -/
abbrev Reader (σ ε α : Type) := StateT (List σ) (Except ε) α

namespace Reader

variable {σ ε α β γ : Type}

/-- `read` reads `value` off `source` and leaves `rest`. -/
def Reads (read : Reader σ ε α) (source : List σ) (value : α) (rest : List σ) : Prop :=
  read.run source = .ok (value, rest)

variable {source rest : List σ} {x : α}

@[simp] theorem reads_pure {value : α} :
    Reads (pure x : Reader σ ε α) source value rest ↔ x = value ∧ source = rest := by
  show (Except.ok (x, source) : Except ε _) = .ok (value, rest) ↔ _
  simp

@[simp] theorem not_reads_throw {error : ε} {value : α} : ¬ Reads (throw error : Reader σ ε α) source value rest := by
  show ¬ (Except.error error : Except ε _) = .ok (value, rest)
  simp

variable {read : Reader σ ε α} {value : β}

theorem reads_bind {next : α → Reader σ ε β} : Reads (read >>= next) source value rest ↔
      ∃ x middle, Reads read source x middle ∧ Reads (next x) middle value rest := by
  simp only [Reads, StateT.run_bind]
  cases read.run source with
  | error error => simp [bind, Except.bind]
  | ok read =>
    obtain ⟨x, middle⟩ := read
    simp [bind, Except.bind]

theorem reads_map {f : α → β} : Reads (f <$> read) source value rest ↔ ∃ x, Reads read source x rest ∧ f x = value := by
  rw [map_eq_pure_bind, reads_bind]
  constructor
  · rintro ⟨x, middle, read, now⟩
    obtain ⟨is, rfl⟩ := reads_pure.mp now
    exact ⟨x, read, is⟩
  · rintro ⟨x, read, is⟩
    exact ⟨x, rest, read, reads_pure.mpr ⟨is, rfl⟩⟩

theorem Reads.bind {next : α → Reader σ ε β} {middle : List σ} (first : Reads read source x middle)
    (second : Reads (next x) middle value rest) : Reads (read >>= next) source value rest :=
  reads_bind.mpr ⟨x, middle, first, second⟩

theorem Reads.map {f : α → β} (reads : Reads read source x rest) : Reads (f <$> read) source (f x) rest :=
  reads_map.mpr ⟨x, reads, rfl⟩

theorem Reads.unique {y : α} {rest' : List σ} (first : Reads read source x rest)
    (second : Reads read source y rest') : x = y ∧ rest = rest' :=
  Prod.mk.inj (Except.ok.inj (first.symm.trans second))

/-- What takes nothing off the list. -/
def ofExcept (result : Except ε α) : Reader σ ε α := fun source => result.map (·, source)

/-- So many items, or the error that there are fewer. -/
def take (short : ε) (count : Nat) : Reader σ ε (List σ) := fun source =>
  if source.length < count then .error short else .ok (source.take count, source.drop count)

theorem reads_take {short : ε} {count : Nat} {value : List σ} :
    Reads (take short count) source value rest ↔ source = value ++ rest ∧ value.length = count := by
  show (if source.length < count then _ else _) = _ ↔ _
  split
  · rename_i few
    constructor
    · exact nofun
    · rintro ⟨rfl, rfl⟩
      rw [length_append] at few
      omega
  · rename_i enough
    rw [Except.ok.injEq, Prod.mk.injEq]
    constructor
    · rintro ⟨rfl, rfl⟩
      exact ⟨(take_append_drop count source).symm, length_take_of_le (by omega)⟩
    · rintro ⟨rfl, rfl⟩
      exact ⟨take_left, drop_left⟩

/-- A reader so many times. -/
def times (read : Reader σ ε α) : Nat → Reader σ ε (List α)
  | 0 => pure []
  | count + 1 => do
      let value ← read
      let values ← times read count
      pure (value :: values)

theorem Reads.times {read : Reader σ ε α} {write : γ → List σ} {value : γ → α} {rest : List σ}
    {xs : List γ} {size : Nat} (fits : (xs.flatMap write ++ rest).length ≤ size)
    (each : ∀ x ∈ xs, ∀ tail, (write x ++ tail).length ≤ size → Reads read (write x ++ tail) (value x) tail) :
    Reads (times read xs.length) (xs.flatMap write ++ rest) (xs.map value) rest := by
  induction xs with
  | nil => exact reads_pure.mpr ⟨rfl, rfl⟩
  | cons x xs ih =>
    rw [flatMap_cons, append_assoc] at fits ⊢
    have later : (xs.flatMap write ++ rest).length ≤ size := by
      rw [length_append] at fits
      omega
    have others := ih later fun y there => each y (mem_cons_of_mem x there)
    exact (each x mem_cons_self _ fits).bind (others.bind (reads_pure.mpr ⟨rfl, rfl⟩))

theorem reads_times {read : Reader σ ε α} {write : α → List σ} {P : α → Prop} {count : Nat}
    {source rest : List σ} {values : List α}
    (each : ∀ source value rest, Reads read source value rest → source = write value ++ rest ∧ P value)
    (reads : Reads (times read count) source values rest) :
    source = values.flatMap write ++ rest ∧ values.length = count ∧ ∀ value ∈ values, P value := by
  induction count generalizing source values with
  | zero =>
    obtain ⟨rfl, rfl⟩ := reads_pure.mp reads
    exact ⟨rfl, rfl, nofun⟩
  | succ count ih =>
    obtain ⟨value, middle, first, reads⟩ := reads_bind.mp reads
    obtain ⟨later, middle', others, reads⟩ := reads_bind.mp reads
    obtain ⟨rfl, rfl⟩ := reads_pure.mp reads
    obtain ⟨rfl, holds⟩ := each _ _ _ first
    obtain ⟨rfl, rfl, hold⟩ := ih others
    refine ⟨by rw [flatMap_cons, append_assoc], rfl, ?_⟩
    exact forall_mem_cons.mpr ⟨holds, hold⟩

/-- A reader of what another reads, changed. -/
def Maps (f : α → β) (read : Reader σ ε α) (read' : Reader σ ε β) : Prop :=
  ∀ source value rest, Reads read' source value rest ↔ ∃ x, Reads read source x rest ∧ f x = value

namespace Maps

theorem refl (read : Reader σ ε α) : Maps id read read :=
  fun _ _ _ => ⟨fun reads => ⟨_, reads, rfl⟩, fun ⟨_, reads, is⟩ => is ▸ reads⟩

variable {f : α → β}

theorem pure' (x : α) : Maps f (pure x : Reader σ ε α) (pure (f x)) := by
  intro source value rest
  simp only [reads_pure]
  constructor
  · rintro ⟨rfl, rfl⟩
    exact ⟨x, ⟨rfl, rfl⟩, rfl⟩
  · rintro ⟨_, ⟨rfl, rfl⟩, rfl⟩
    exact ⟨rfl, rfl⟩

theorem throw' (error : ε) :
    Maps f (throw error : Reader σ ε α) (throw error : Reader σ ε β) := by
  intro source value rest
  simp

theorem bind' {α' β' : Type} {f : α → α'} {g : β → β'} {read : Reader σ ε α}
    {read' : Reader σ ε α'} {next : α → Reader σ ε β} {next' : α' → Reader σ ε β'}
    (first : Maps f read read') (second : ∀ x, Maps g (next x) (next' (f x))) :
    Maps g (read >>= next) (read' >>= next') := by
  intro source value rest
  simp only [reads_bind]
  constructor
  · rintro ⟨x', middle, reads, then'⟩
    obtain ⟨x, before, rfl⟩ := (first _ _ _).mp reads
    obtain ⟨y, after, rfl⟩ := (second x _ _ _).mp then'
    exact ⟨y, ⟨x, middle, before, after⟩, rfl⟩
  · rintro ⟨y, ⟨x, middle, reads, reads'⟩, rfl⟩
    exact ⟨f x, middle, (first _ _ _).mpr ⟨x, reads, rfl⟩, (second x _ _ _).mpr ⟨y, reads', rfl⟩⟩

theorem times' {read : Reader σ ε α} {read' : Reader σ ε β} (each : Maps f read read') (count : Nat) :
    Maps (map f) (times read count) (times read' count) := by
  induction count with
  | zero => exact pure' []
  | succ count ih => exact each.bind' fun x => ih.bind' fun xs => pure' (x :: xs)

end Maps

end Reader

/-! ## What writes for a reader -/

section

variable {σ ε α : Type}

/-- Values that each take an item are no more than the items. -/
theorem length_le_flatMap {write : α → List σ} {values : List α} (each : ∀ value ∈ values, 0 < (write value).length) :
    values.length ≤ (values.flatMap write).length := by
  induction values with
  | nil => exact Nat.le_refl 0
  | cons value values ih =>
    have first := each value mem_cons_self
    have rest := ih fun other there => each other (mem_cons_of_mem value there)
    rw [flatMap_cons, length_append, length_cons]
    omega

theorem bind_eq_ok {β : Type} {first : Except ε α} {next : α → Except ε β} {value : β} :
    first >>= next = .ok value ↔ ∃ x, first = .ok x ∧ next x = .ok value := by
  cases first <;> simp [bind, Except.bind]

theorem pure_eq_ok {x value : α} : (pure x : Except ε α) = .ok value ↔ x = value := by
  show Except.ok x = .ok value ↔ _
  rw [Except.ok.injEq]

/-- What was written, if it was. -/
def written : Except ε (List σ) → List σ
  | .ok items => items
  | .error _ => []

theorem mapM_eq_ok {write : α → Except ε (List σ)} {values : List α} {parts : List (List σ)} :
    values.mapM write = .ok parts ↔ (∀ value ∈ values, write value = .ok (written (write value))) ∧
        parts = values.map fun value => written (write value) := by
  induction values generalizing parts with
  | nil =>
    rw [mapM_nil]
    show (Except.ok [] : Except ε _) = _ ↔ _
    simp [eq_comm]
  | cons value values ih =>
    rw [mapM_cons, forall_mem_cons, map_cons]
    cases first : write value with
    | error error => simp [bind, Except.bind]
    | ok part =>
      cases rest : values.mapM write with
      | error error =>
        have none' := @ih (values.map fun value => written (write value))
        rw [rest] at none'
        have notAll := fun all => (none'.mpr ⟨all, rfl⟩ : Except.error error = .ok _)
        constructor
        · exact nofun
        · rintro ⟨⟨-, all⟩, -⟩
          exact nomatch notAll all
      | ok others =>
        obtain ⟨all, is⟩ := ih.mp rest
        show (Except.ok (part :: others) : Except ε _) = _ ↔ _
        rw [Except.ok.injEq, ← is]
        exact ⟨fun same => ⟨⟨rfl, all⟩, same.symm⟩, fun ⟨_, same⟩ => same.symm⟩

end

end Kiln.Lib
