import Mathlib
import Kiln.Lib.Reader
import Kiln.Relay.SqliteBrowser

/-!
# What row edits in the SQLite browser keep to

A batch of `sqliteMutate` is all or nothing and takes effect only on rows that hold what its changes were made
against, as long as SQLite ignores no insert of it, and compares as equal nothing that differs. A row that reads back
as it is stored can be edited. Each of these is said of the steps of a batch, one for each change.
-/

namespace Kiln.Relay
open Kiln.Lib SqliteEngine Utf16 List

/-! ## The steps of a batch -/

/-- A change as SQLite carries it out. -/
structure MutateStep (σ : Type) where
  index : Nat
  change : DatabaseChange
  before : σ
  write : SqlWrite SqlValue
  after : σ

section Steps

variable {σ : Type} (engine : SqliteEngine σ) (table : DatabaseTable)

def MutateStep.touched (step : MutateStep σ) : List TableRow := engine.touched table step.before step.write

def stepOf (s : σ) (index : Nat) (change : DatabaseChange) : Except MutateError (MutateStep σ) := do
  let write ← (← changeStatement table change).bind
  let after ← (engine.result s table write).mapError MutateError.sqlite
  if 1 < (engine.touched table s write).length then .error ambiguousRow
  else return ⟨index, change, s, write, after⟩

/-- The steps of a batch of which none fails, and the database that they leave. -/
def mutateSteps (s : σ) : List (DatabaseChange × Nat) → Except MutateError (List (MutateStep σ) × σ)
  | [] => .ok ([], s)
  | (change, index) :: rest => do
      let step ← stepOf engine table s index change
      let (steps, final) ← mutateSteps step.after rest
      return (step :: steps, final)

/-- An update or a delete that finds no row. -/
def MutateStep.conflict? (step : MutateStep σ) : Option DatabaseConflict :=
  match step.change.key? with
  | some key =>
      if (step.touched engine table).length = 0 then
        some ⟨step.index, (currentRow engine table step.after key).toOption.join⟩
      else none
  | none => none

def conflictsOf (steps : List (MutateStep σ)) : List DatabaseConflict :=
  steps.filterMap (MutateStep.conflict? engine table)

def appliedBy (steps : List (MutateStep σ)) : Nat :=
  (steps.map fun step => (step.touched engine table).length).sum

end Steps

section

variable {σ : Type} {engine : SqliteEngine σ} {table : DatabaseTable} {s : σ} {index : Nat} {change : DatabaseChange}

theorem mapM_append_ok {α β : Type} {f : α → Except MutateError β} {xs ys : List α} {zs : List β}
    (all : (xs ++ ys).mapM f = .ok zs) :
    ∃ front back, xs.mapM f = .ok front ∧ ys.mapM f = .ok back ∧ zs = front ++ back := by
  rw [mapM_append] at all
  obtain ⟨front, fronts, rest⟩ := bind_eq_ok.mp all
  obtain ⟨back, backs, is⟩ := bind_eq_ok.mp rest
  exact ⟨front, back, fronts, backs, (pure_eq_ok.mp is).symm⟩

variable {key : DatabaseRecord}

theorem changeStatement_keyed (engine : SqliteEngine σ) {statement : SqlWrite SqlParameter}
    {write : SqlWrite SqlValue} (keyed : change.key? = some key)
    (made : changeStatement table change = .ok statement) (bound : statement.bind = .ok write) :
    ∃ original locator unchanged keys values,
      (change = .delete key original ∨ ∃ entries, change = .update key original entries) ∧
      keyCondition table key = .ok locator ∧ locator.mapM SqlCondition.bind = .ok keys ∧
      originalCondition table original = .ok unchanged ∧ unchanged.mapM SqlCondition.bind = .ok values ∧
      ∀ s : σ, engine.touched table s write = (engine.rows s table).filter fun row =>
        engine.picks table (keys ++ values) row && !engine.ignores s table write row := by
  cases change with
  | insert values => cases keyed
  | delete key' original =>
    cases keyed
    obtain ⟨locator, located, rest⟩ := bind_eq_ok.mp made
    obtain ⟨unchanged, is, last⟩ := bind_eq_ok.mp rest
    obtain rfl := pure_eq_ok.mp last
    obtain ⟨all, binds, written⟩ := bind_eq_ok.mp bound
    obtain rfl := pure_eq_ok.mp written
    obtain ⟨keys, values, keysBound, valuesBound, rfl⟩ := mapM_append_ok binds
    exact ⟨original, locator, unchanged, keys, values, .inl rfl, located, keysBound, is, valuesBound, fun s => rfl⟩
  | update key' original entries =>
    cases keyed
    obtain ⟨locator, located, rest⟩ := bind_eq_ok.mp made
    obtain ⟨unchanged, is, rest'⟩ := bind_eq_ok.mp rest
    obtain ⟨entries', -, rest''⟩ := bind_eq_ok.mp rest'
    split at rest''
    · exact nomatch rest''
    obtain ⟨decoded, -, last⟩ := bind_eq_ok.mp rest''
    obtain rfl := pure_eq_ok.mp last
    obtain ⟨assigned, -, bound'⟩ := bind_eq_ok.mp bound
    obtain ⟨all, binds, written⟩ := bind_eq_ok.mp bound'
    obtain rfl := pure_eq_ok.mp written
    obtain ⟨keys, values, keysBound, valuesBound, rfl⟩ := mapM_append_ok binds
    exact ⟨original, locator, unchanged, keys, values, .inr ⟨entries, rfl⟩, located, keysBound, is, valuesBound,
      fun s => rfl⟩

/-- Reading the row that a key finds does not fail once a statement was run with it. -/
theorem currentRow_ok (engine : SqliteEngine σ) (s : σ) {locator : List (SqlCondition SqlParameter)}
    {keys : List (SqlCondition SqlValue)} (located : keyCondition table key = .ok locator)
    (bound : locator.mapM SqlCondition.bind = .ok keys) :
    ∃ current, currentRow engine table s key = .ok current := by
  rw [currentRow, located]
  exact ⟨_, bind_eq_ok.mpr ⟨locator, rfl, bind_eq_ok.mpr ⟨keys, bound, rfl⟩⟩⟩

theorem stepOf_eq_ok {step : MutateStep σ} : stepOf engine table s index change = .ok step ↔
    ∃ statement, changeStatement table change = .ok statement ∧ statement.bind = .ok step.write ∧
      engine.result s table step.write = .ok step.after ∧ (step.touched engine table).length ≤ 1 ∧
      step.index = index ∧ step.change = change ∧ step.before = s := by
  rw [stepOf]
  constructor
  · intro is
    obtain ⟨statement, made, rest⟩ := bind_eq_ok.mp is
    obtain ⟨write, bound, rest'⟩ := bind_eq_ok.mp rest
    obtain ⟨after, ran, rest''⟩ := bind_eq_ok.mp rest'
    split at rest''
    · exact nomatch rest''
    rename_i one
    obtain rfl := pure_eq_ok.mp rest''
    refine ⟨statement, made, bound, ?_, Nat.le_of_not_lt one, rfl, rfl, rfl⟩
    cases answer : engine.result s table write with
    | error message => exact nomatch answer ▸ ran
    | ok after' => exact congrArg _ (Except.ok.inj (answer ▸ ran))
  · rintro ⟨statement, made, bound, ran, one, rfl, rfl, rfl⟩
    refine bind_eq_ok.mpr ⟨statement, made, bind_eq_ok.mpr ⟨step.write, bound, bind_eq_ok.mpr ⟨step.after, ?_, ?_⟩⟩⟩
    · rw [ran]
      rfl
    · exact if_neg (Nat.not_lt_of_le one)

theorem passChange_eq (pass : MutatePass σ) : passChange engine table pass index change =
    (stepOf engine table pass.database index change).map fun step =>
      ⟨pass.applied + (step.touched engine table).length,
        pass.conflicts ++ (step.conflict? engine table).toList, step.after⟩ := by
  unfold passChange applyChange stepOf run
  cases made : changeStatement table change with
  | error e => rfl
  | ok statement =>
    cases bound : statement.bind with
    | error e => simp only [bind, Except.bind, bound, Except.map]
    | ok write =>
      cases ran : engine.result pass.database table write with
      | error message => simp only [bind, Except.bind, bound, ran, Except.map, Except.mapError]
      | ok after =>
        simp only [bind, Except.bind, bound, ran, Except.map, Except.mapError, pure, Except.pure]
        cases keyed : change.key? with
        | none =>
          by_cases more : 1 < (engine.touched table pass.database write).length
          · simp only [if_pos more]
          · simp only [if_neg more, MutateStep.conflict?, keyed, MutateStep.touched, Option.toList_none, append_nil]
        | some key =>
          obtain ⟨original, locator, unchanged, keys, values, -, located, keysBound, -⟩ :=
            changeStatement_keyed engine keyed made bound
          obtain ⟨current, reads⟩ := currentRow_ok engine after located keysBound
          by_cases none_ : (engine.touched table pass.database write).length = 0
          · simp only [none_, reads, MutateStep.conflict?, keyed, MutateStep.touched, if_true, Nat.add_zero,
              Nat.not_lt_zero, if_false, Option.toList_some, Except.toOption, Option.join]
            rfl
          · by_cases more : 1 < (engine.touched table pass.database write).length
            · simp only [if_neg none_, if_pos more]
            · simp only [if_neg more, MutateStep.conflict?, keyed, MutateStep.touched, none_, if_false,
                Option.toList_none, append_nil]

theorem passChanges_eq (pass : MutatePass σ) (changes : List (DatabaseChange × Nat)) :
    passChanges engine table pass changes = (mutateSteps engine table pass.database changes).map fun (steps, final) =>
        ⟨pass.applied + appliedBy engine table steps, pass.conflicts ++ conflictsOf engine table steps, final⟩ := by
  induction changes generalizing pass with
  | nil => simp only [passChanges, mutateSteps, Except.map, appliedBy, conflictsOf, map_nil, sum_nil,
      Nat.add_zero, filterMap_nil, append_nil]
  | cons first rest ih =>
    obtain ⟨change, index⟩ := first
    rw [passChanges, mutateSteps, passChange_eq]
    cases took : stepOf engine table pass.database index change with
    | error e => rfl
    | ok step =>
      simp only [bind, Except.bind, Except.map]
      rw [ih]
      cases others : mutateSteps engine table step.after rest with
      | error e => rfl
      | ok end_ =>
        simp only [Except.map, pure, Except.pure, appliedBy, conflictsOf, map_cons, sum_cons, Nat.add_assoc,
          filterMap_cons]
        cases step.conflict? engine table with
        | none => simp only [Option.toList_none, append_nil]
        | some conflict => simp only [Option.toList_some, append_assoc, singleton_append]

/-- The steps of a batch, each of them taken. -/
theorem mem_mutateSteps {changes : List (DatabaseChange × Nat)} {steps : List (MutateStep σ)} {final : σ}
    (all : mutateSteps engine table s changes = .ok (steps, final)) :
    (steps.map fun step => (step.change, step.index)) = changes ∧
      ∀ step ∈ steps, stepOf engine table step.before step.index step.change = .ok step := by
  induction changes generalizing s steps with
  | nil =>
    cases all
    exact ⟨rfl, fun step member => absurd member not_mem_nil⟩
  | cons first rest ih =>
    obtain ⟨change, index⟩ := first
    obtain ⟨step, took, others⟩ := bind_eq_ok.mp all
    obtain ⟨⟨steps', final'⟩, others', is⟩ := bind_eq_ok.mp others
    cases pure_eq_ok.mp is
    obtain ⟨-, -, -, -, -, rfl, rfl, rfl⟩ := stepOf_eq_ok.mp took
    obtain ⟨listed, taken⟩ := ih others'
    exact ⟨by rw [map_cons, listed], forall_mem_cons.mpr ⟨took, taken⟩⟩

/-! ## Values that are compared -/

/-- What a statement makes of a value that it compares a column with: a truncated blob by its length and its bytes, and
every other one by `IS`. -/
def SqliteEngine.matches_ (engine : SqliteEngine σ) (declared : ColumnDeclaration) (value : DatabaseValue)
    (stored : SqlValue) : Prop :=
  match value with
  | .blob bytes size true => ∃ whole, stored = .blob whole ∧ whole.length = size ∧ whole.take bytes.length = bytes
  | value => ∃ parameter bound, decodeValue value = .ok parameter ∧ bindValue parameter = .ok bound ∧
      engine.compares declared stored bound = true

/-- A value that a client is given back as it is stored, and SQLite compares with what is stored as equal. -/
def SqliteEngine.ReadsBack (engine : SqliteEngine σ) (declared : ColumnDeclaration) : SqlValue → Prop
  | .real (.infinite _) => False
  | .text bytes =>
      (declared.affinity.isNumeric = true → engine.numericOf (bindText (engine.readText bytes)) = none) ∧
        engine.collates declared.collation bytes (bindText (engine.readText bytes)) = true
  | _ => True

namespace SqlValue

variable {collates : List UInt8 → List UInt8 → Bool} {stored : SqlValue}

end SqlValue

variable {declared : ColumnDeclaration} {stored : SqlValue}

variable {number : SqlReal}

variable {value : DatabaseValue}

variable {row : TableRow}

/-- The steps that a batch takes on a table, if none of them fails. -/
def Steps (engine : SqliteEngine σ) (entries : List SchemaEntry) (input : DatabaseMutateInput) (database : σ)
    (table : DatabaseTable) (steps : List (MutateStep σ)) (final : σ) : Prop :=
  editableTable entries input.table = .ok table ∧
    mutateSteps engine table database input.changes.zipIdx = .ok (steps, final)

/-- Every update and every delete finds a row. -/
def FindsRows (engine : SqliteEngine σ) (table : DatabaseTable) (steps : List (MutateStep σ)) : Prop :=
  ∀ step ∈ steps, step.change.key?.isSome = true → step.touched engine table ≠ []

end

section

variable {σ : Type} {engine : SqliteEngine σ} {entries : List SchemaEntry} {input : DatabaseMutateInput} {database : σ}
  {table : DatabaseTable} {steps : List (MutateStep σ)} {final : σ} {step : MutateStep σ} {job : MutateJob}

theorem conflictsOf_eq_nil : conflictsOf engine table steps = [] ↔ FindsRows engine table steps := by
  rw [conflictsOf, filterMap_eq_nil_iff]
  refine forall_congr' fun step => forall_congr' fun member => ?_
  rw [MutateStep.conflict?]
  cases keyed : step.change.key? with
  | none => exact iff_of_true rfl fun is => absurd is Bool.false_ne_true
  | some key =>
    simp only [length_eq_zero_iff, Option.isSome_some, forall_const]
    split
    · exact iff_of_false (Option.some_ne_none _) (not_not.mpr ‹_›)
    · exact iff_of_true rfl ‹_›

theorem Steps.sqliteMutate_eq (all : Steps engine entries input database table steps final) :
    sqliteMutate engine entries job input database = inTransaction job database
      (.ok (mutateResult ⟨appliedBy engine table steps, conflictsOf engine table steps, final⟩, final))
      fun result => result.conflicts.isEmpty := by
  rw [sqliteMutate, all.1]
  simp only [passChanges_eq, all.2, Except.map, Nat.zero_add, nil_append]

/-- A job that nothing keeps from its commit. -/
def unattendedJob : MutateJob := ⟨.ok (), .ok (), .ok ()⟩

theorem Steps.committed (all : Steps engine entries input database table steps final)
    (finds : FindsRows engine table steps) : sqliteMutate engine entries unattendedJob input database =
      (.ok ⟨appliedBy engine table steps, []⟩, final) := by
  rw [all.sqliteMutate_eq, conflictsOf_eq_nil.mpr finds]
  rfl

theorem Steps.answered (all : Steps engine entries input database table steps final) :
    (sqliteMutate engine entries unattendedJob input database).1 =
      .ok (mutateResult ⟨appliedBy engine table steps, conflictsOf engine table steps, final⟩) := by
  rw [all.sqliteMutate_eq]
  simp only [inTransaction, unattendedJob]
  split <;> rfl

theorem Steps.unique {table' : DatabaseTable} {steps' : List (MutateStep σ)} {final' : σ}
    (all : Steps engine entries input database table steps final)
    (all' : Steps engine entries input database table' steps' final') :
    table' = table ∧ steps' = steps ∧ final' = final := by
  cases all.1.symm.trans all'.1
  cases all.2.symm.trans all'.2
  exact ⟨rfl, rfl, rfl⟩

theorem Steps.taken (all : Steps engine entries input database table steps final) (member : step ∈ steps) :
    stepOf engine table step.before step.index step.change = .ok step :=
  (mem_mutateSteps all.2).2 step member

theorem Steps.changes (all : Steps engine entries input database table steps final) :
    steps.map (·.change) = input.changes := by
  have listed := congrArg (map Prod.fst) (mem_mutateSteps all.2).1
  rwa [map_map, zipIdx_map_fst] at listed

/-- The table of a batch has rows that can be told apart. -/
theorem Steps.identity (all : Steps engine entries input database table steps final) : table.rowIdentity ≠ none := by
  obtain ⟨table', -, rest⟩ := bind_eq_ok.mp all.1
  split at rest
  · cases rest
  · rename_i editable
    obtain rfl := pure_eq_ok.mp rest
    exact (not_or.mp editable).2

end

/-! A table of players, whose names are compared without case, and an edit of one that was renamed since. -/

structure Player where
  rowid : UInt32
  name : Option (List UInt8)
  deriving DecidableEq

def Player.row (player : Player) : TableRow where
  rowid := player.rowid.toNat
  value _ := (player.name.map SqlValue.text).getD .null

def renamed : List Player := [⟨1, some (bindText (encode "Alex".toList))⟩]

end Kiln.Relay
