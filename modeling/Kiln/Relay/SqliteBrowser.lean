import Mathlib
import Kiln.Lib.Utf8
import Kiln.Lib.Utf16

/-!
# Row edits in the SQLite browser

`sqliteMutate` of apps/relay/src/database-browser-sqlite.ts, with the tables it lists, the transaction around a
batch, the statement each change becomes, and what it makes of SQLite's answers. SQLite is a parameter: the rows it
holds, what a statement leaves, which rows a constraint or a trigger has it ignore, how text turns into numbers and
back, and its collations. What it documents of them are the laws of `SqliteEngine`.
-/

namespace Kiln.Relay
open Kiln.Lib

/-! ## Values -/

/-- A number that SQLite stores as REAL. It stores NaN as NULL. -/
inductive SqlReal where
  | finite (value : ℚ)
  | infinite (negative : Bool)
  deriving DecidableEq

inductive SqlValue where
  | null
  | integer (value : Int)
  | real (value : SqlReal)
  | text (bytes : List UInt8)
  | blob (bytes : List UInt8)
  deriving DecidableEq

/-- `databaseValueSchema` of packages/contracts/src/database-browser.ts. A blob has the bytes of its base64 text. -/
inductive DatabaseValue where
  | null
  | boolean (value : Bool)
  | number (value : ℚ)
  | string (value : Utf16)
  | bigint (value : Int)
  | blob (bytes : List UInt8) (size : Nat) (truncated : Bool)
  deriving DecidableEq

/-- What a statement is given for a parameter. -/
inductive SqlParameter where
  | null
  | number (value : ℚ)
  | string (value : Utf16)
  | bigint (value : Int)
  | buffer (bytes : List UInt8)

structure DatabaseBrowserError where
  code : String
  message : String
  deriving DecidableEq

/-- The browser's own errors, and those of SQLite, of its driver and of the job. -/
inductive MutateError where
  | browser (error : DatabaseBrowserError)
  | sqlite (message : String)
  deriving DecidableEq

def blobPreviewBytes : Nat := 1024

/-- Integers that a JavaScript number holds. -/
def fitsNumber (n : Int) : Prop := -(2 ^ 53 - 1) ≤ n ∧ n ≤ 2 ^ 53 - 1

instance (n : Int) : Decidable (fitsNumber n) := inferInstanceAs (Decidable (_ ∧ _))

/-- `Infinity` is the limit `none`. -/
def encodeValue (readText : List UInt8 → Utf16) (value : SqlValue) (blobLimit : Option Nat) : DatabaseValue :=
  match value with
  | .null => .null
  | .integer n => if fitsNumber n then .number n else .bigint n
  | .real (.finite q) => .number q
  | .real (.infinite negative) => .string (Utf16.encode (if negative then "-Infinity" else "Infinity").toList)
  | .text bytes => .string (readText bytes)
  | .blob bytes =>
      match blobLimit with
      | some limit =>
          if limit < bytes.length then .blob (bytes.take limit) bytes.length true
          else .blob bytes bytes.length false
      | none => .blob bytes bytes.length false

def decodeValue : DatabaseValue → Except MutateError SqlParameter
  | .null => .ok .null
  | .boolean value => .ok (.number (if value then 1 else 0))
  | .number q => .ok (.number q)
  | .string s => .ok (.string s)
  | .bigint n => .ok (.bigint n)
  | .blob bytes _ false => .ok (.buffer bytes)
  | .blob _ _ true => .error (.browser ⟨"truncated_blob", "Truncated blob previews cannot be written back"⟩)

/-- The driver writes text as UTF-8, numbers as REAL, and no integer of more than 64 bits. -/
def bindText (text : Utf16) : List UInt8 := Utf8.encode (Utf16.decode text)

def fitsInt64 (n : Int) : Prop := -2 ^ 63 ≤ n ∧ n < 2 ^ 63

instance (n : Int) : Decidable (fitsInt64 n) := inferInstanceAs (Decidable (_ ∧ _))

def bindValue : SqlParameter → Except MutateError SqlValue
  | .null => .ok .null
  | .number q => .ok (.real (.finite q))
  | .string s => .ok (.text (bindText s))
  | .bigint n => if fitsInt64 n then .ok (.integer n) else .error (.sqlite "BigInt value is too large to bind")
  | .buffer bytes => .ok (.blob bytes)

/-! ## Tables -/

structure DatabaseColumn where
  name : String
  generated : Bool := false
  primaryKey : Nat := 0

inductive RowIdentity where
  | primaryKey
  | rowid
  deriving DecidableEq

inductive TableKind where
  | table
  | view
  deriving DecidableEq

structure DatabaseTable where
  name : String
  columns : List DatabaseColumn
  kind : TableKind
  rowIdentity : Option RowIdentity

inductive SchemaType where
  | table
  | view
  | virtual
  deriving DecidableEq

/-- A column as `pragma_table_xinfo` tells it: 1 is a virtual table's hidden one, 2 and 3 are generated. -/
structure PragmaColumn where
  name : String
  pk : Nat
  hidden : Nat

/-- A row of `pragma_table_list`, with its columns. -/
structure SchemaEntry where
  name : String
  type : SchemaType
  withoutRowid : Bool
  columns : List PragmaColumn

def rowidAliases : List String := ["rowid", "_rowid_", "oid"]

def lowerNames (columns : List DatabaseColumn) : List String :=
  columns.map fun column => String.ofList (column.name.toList.map Char.toLower)

def listTables (entries : List SchemaEntry) : List DatabaseTable :=
  entries.map fun entry =>
    let columns := (entry.columns.filter (·.hidden ≠ 1)).map fun column =>
      { name := column.name, generated := column.hidden = 2 ∨ column.hidden = 3, primaryKey := column.pk }
    let hasRowid := !entry.withoutRowid && rowidAliases.any fun alias_ => alias_ ∉ lowerNames columns
    { name := entry.name
      columns
      kind := if entry.type = .view then .view else .table
      rowIdentity :=
        if entry.type ≠ .table then none
        else if hasRowid then some .rowid
        else if columns.any (0 < ·.primaryKey) then some .primaryKey
        else none }

def requireTable (entries : List SchemaEntry) (name : String) : Except MutateError DatabaseTable :=
  match (listTables entries).find? (·.name = name) with
  | none => .error (.browser ⟨"unknown_table", "Unknown table " ++ name⟩)
  | some table => .ok table

def primaryKeyColumns (columns : List DatabaseColumn) : List DatabaseColumn :=
  (columns.filter (0 < ·.primaryKey)).mergeSort fun left right => left.primaryKey ≤ right.primaryKey

def unshadowedRowIdAlias (columns : List DatabaseColumn) : Except MutateError String :=
  match rowidAliases.find? (· ∉ lowerNames columns) with
  | none => .error (.browser
      ⟨"read_only_table", "Every rowid alias is shadowed by a column, so rows cannot be addressed"⟩)
  | some alias_ => .ok alias_

/-! ## Statements -/

/-- What a WHERE asks of a row; its conditions are joined by AND. -/
inductive SqlCondition (ν : Type) where
  | rowid (value : ν)
  | is_ (column : String) (value : ν)
  /-- `typeof(column) = 'blob' AND length(column) = ? AND substr(column, 1, ?) = ?` -/
  | preview (column : String) (size : Nat) (bytes : List UInt8)

inductive SqlWrite (ν : Type) where
  | insert (entries : List (String × ν))
  | update (entries : List (String × ν)) (where_ : List (SqlCondition ν))
  | delete (where_ : List (SqlCondition ν))

def SqlCondition.bind : SqlCondition SqlParameter → Except MutateError (SqlCondition SqlValue)
  | .rowid value => return .rowid (← bindValue value)
  | .is_ column value => return .is_ column (← bindValue value)
  | .preview column size bytes => return .preview column size bytes

def bindEntry (entry : String × SqlParameter) : Except MutateError (String × SqlValue) :=
  return (entry.1, ← bindValue entry.2)

def SqlWrite.bind : SqlWrite SqlParameter → Except MutateError (SqlWrite SqlValue)
  | .insert entries => return .insert (← entries.mapM bindEntry)
  | .update entries where_ => do
      let entries ← entries.mapM bindEntry
      return .update entries (← where_.mapM SqlCondition.bind)
  | .delete where_ => return .delete (← where_.mapM SqlCondition.bind)

/-! ## SQLite -/

inductive Affinity where
  | text
  | numeric
  | integer
  | real
  | blob
  deriving DecidableEq

/-- INTEGER, REAL and NUMERIC compare alike. -/
def Affinity.isNumeric : Affinity → Bool
  | .numeric | .integer | .real => true
  | .text | .blob => false

/-- What a column's declaration says of comparisons with it. -/
structure ColumnDeclaration where
  affinity : Affinity
  collation : String

structure TableRow where
  rowid : Int
  value : String → SqlValue

namespace SqlValue

/-- The number that a value is: an integer and a real are compared by their exact values. -/
def number? : SqlValue → Option SqlReal
  | .integer n => some (.finite n)
  | .real r => some r
  | .null | .text _ | .blob _ => none

/-- `left IS right`, once affinity is applied. -/
def is_ (collates : List UInt8 → List UInt8 → Bool) (left right : SqlValue) : Bool :=
  match left, right with
  | .null, .null => true
  | .text a, .text b => collates a b
  | .blob a, .blob b => a = b
  | left, right => left.number?.isSome && left.number? = right.number?

/-- What storing a value under a column's affinity leaves: no number in a TEXT column, and no text in a numeric one that
is a number. Integers have 64 bits. -/
structure Conforms (numericOf : List UInt8 → Option SqlReal) (affinity : Affinity) (value : SqlValue) : Prop where
  plain : affinity = .text → value.number? = none
  converted : affinity.isNumeric = true → ∀ bytes, value = .text bytes → numericOf bytes = none
  fits : ∀ n, value = .integer n → fitsInt64 n

end SqlValue

structure SqliteEngine (σ : Type) where
  /-- A table's rows. -/
  rows : σ → DatabaseTable → List TableRow
  declared : DatabaseTable → String → ColumnDeclaration
  triggers : DatabaseTable → Bool
  /-- A constraint with ON CONFLICT IGNORE, or a trigger that raises IGNORE, keeps a row from a statement. -/
  ignores : σ → DatabaseTable → SqlWrite SqlValue → TableRow → Bool
  /-- The rows that an INSERT adds, if it is not ignored. -/
  inserted : σ → DatabaseTable → List (String × SqlValue) → List TableRow
  /-- The database after a statement, which may fail. -/
  result : σ → DatabaseTable → SqlWrite SqlValue → Except String σ
  /-- Text as the driver reads it. -/
  readText : List UInt8 → Utf16
  numericOf : List UInt8 → Option SqlReal
  textOf : SqlValue → List UInt8
  collates : String → List UInt8 → List UInt8 → Bool
  collates_self : ∀ collation bytes, collates collation bytes bytes = true
  /-- SQLite reads no number from the words that JavaScript has for infinities. -/
  infinity_text : ∀ negative : Bool,
    numericOf (Utf8.encode (if negative then "-Infinity" else "Infinity").toList) = none
  conforms : ∀ s table, ∀ row ∈ rows s table, fitsInt64 row.rowid ∧
    ∀ column, (row.value column).Conforms numericOf (declared table column).affinity

namespace SqliteEngine

variable {σ : Type} (engine : SqliteEngine σ) (table : DatabaseTable)

/-- A parameter under the affinity of the column that it is compared with. -/
def affine (affinity : Affinity) (value : SqlValue) : SqlValue :=
  match value with
  | .text bytes =>
      if affinity.isNumeric then
        match engine.numericOf bytes with
        | some number => .real number
        | none => .text bytes
      else .text bytes
  | .integer _ | .real _ => if affinity = .text then .text (engine.textOf value) else value
  | .null | .blob _ => value

/-- `column IS ?` -/
def compares (declared : ColumnDeclaration) (stored parameter : SqlValue) : Bool :=
  stored.is_ (engine.collates declared.collation) (engine.affine declared.affinity parameter)

def holds (row : TableRow) : SqlCondition SqlValue → Bool
  | .rowid value => engine.compares ⟨.integer, "BINARY"⟩ (.integer row.rowid) value
  | .is_ column value => engine.compares (engine.declared table column) (row.value column) value
  | .preview column size bytes =>
      match row.value column with
      | .blob stored => stored.length = size ∧ stored.take bytes.length = bytes
      | _ => false

def picks (where_ : List (SqlCondition SqlValue)) (row : TableRow) : Bool := where_.all (engine.holds table row)

/-- The rows that a statement takes effect on, which `changes` is the number of. -/
def touched (s : σ) (write : SqlWrite SqlValue) : List TableRow :=
  match write with
  | .insert entries => engine.inserted s table entries
  | .update _ where_ | .delete where_ =>
      (engine.rows s table).filter fun row => engine.picks table where_ row && !engine.ignores s table write row

/-- `statement.run(...)` -/
def run (s : σ) (write : SqlWrite SqlParameter) : Except MutateError (Nat × σ) := do
  let bound ← write.bind
  let after ← (engine.result s table bound).mapError MutateError.sqlite
  return ((engine.touched table s bound).length, after)

end SqliteEngine

/-! ## Changes -/

/-- A record of values, as `Object.entries` lists it. -/
abbrev DatabaseRecord := List (String × DatabaseValue)

/-- `databaseChangeSchema` of packages/contracts/src/database-browser.ts. -/
inductive DatabaseChange where
  | update (key original values : DatabaseRecord)
  | insert (values : DatabaseRecord)
  | delete (key original : DatabaseRecord)

structure DatabaseConflict where
  change : Nat
  current : Option DatabaseRecord

structure DatabaseMutateResult where
  applied : Nat
  conflicts : List DatabaseConflict

structure DatabaseMutateInput where
  table : String
  changes : List DatabaseChange

def invalidKey : MutateError := .browser ⟨"invalid_key", "Row key does not match the table's row identity"⟩

/-- The names that a row's key has. -/
def keyNames (table : DatabaseTable) : List String :=
  if table.rowIdentity = some .rowid then ["rowid"] else (primaryKeyColumns table.columns).map (·.name)

def keyCondition (table : DatabaseTable) (key : DatabaseRecord) : Except MutateError (List (SqlCondition SqlParameter)) :=
  let names := keyNames table
  if key.length ≠ names.length ∨ names.any fun name => (key.lookup name).isNone then .error invalidKey
  else if table.rowIdentity = some .rowid then do
    let value ← decodeValue ((key.lookup "rowid").getD .null)
    let _ ← unshadowedRowIdAlias table.columns
    return [.rowid value]
  else names.mapM fun name => do
    return .is_ name (← decodeValue ((key.lookup name).getD .null))

def originalColumn (original : DatabaseRecord) (column : DatabaseColumn) :
    Except MutateError (SqlCondition SqlParameter) :=
  match original.lookup column.name with
  | none => .error (.browser ⟨"invalid_change", "The change is missing the original value of " ++ column.name⟩)
  | some (.blob bytes size true) => .ok (.preview column.name size bytes)
  | some value => do return .is_ column.name (← decodeValue value)

def originalCondition (table : DatabaseTable) (original : DatabaseRecord) :
    Except MutateError (List (SqlCondition SqlParameter)) :=
  table.columns.mapM (originalColumn original)

def writableEntries (table : DatabaseTable) (values : DatabaseRecord) : Except MutateError DatabaseRecord :=
  let writable := (table.columns.filter (!·.generated)).map (·.name)
  match values.find? (·.1 ∉ writable) with
  | some (name, _) => .error (.browser ⟨"unknown_column", "Column " ++ name ++ " does not exist or cannot be written"⟩)
  | none => .ok values

def decodeEntry (entry : String × DatabaseValue) : Except MutateError (String × SqlParameter) :=
  return (entry.1, ← decodeValue entry.2)

/-- The statement that a change becomes, with its parameters. -/
def changeStatement (table : DatabaseTable) : DatabaseChange → Except MutateError (SqlWrite SqlParameter)
  | .insert values => do
      let entries ← writableEntries table values
      return .insert (← entries.mapM decodeEntry)
  | .delete key original => do
      let key ← keyCondition table key
      let unchanged ← originalCondition table original
      return .delete (key ++ unchanged)
  | .update key original values => do
      let key ← keyCondition table key
      let unchanged ← originalCondition table original
      let entries ← writableEntries table values
      if entries.isEmpty then .error (.browser ⟨"invalid_change", "The update is empty"⟩)
      else return .update (← entries.mapM decodeEntry) (key ++ unchanged)

section

variable {σ : Type} (engine : SqliteEngine σ) (table : DatabaseTable)

def applyChange (s : σ) (change : DatabaseChange) : Except MutateError (Nat × σ) := do
  engine.run table s (← changeStatement table change)

/-- The row that a change's key finds, as it is now. -/
def currentRow (s : σ) (key : DatabaseRecord) : Except MutateError (Option DatabaseRecord) := do
  let locator ← (← keyCondition table key).mapM SqlCondition.bind
  return ((engine.rows s table).find? (engine.picks table locator)).map fun row =>
    table.columns.map fun column =>
      (column.name, encodeValue engine.readText (row.value column.name) (some blobPreviewBytes))

/-- The key of a change to a row that there is. -/
def DatabaseChange.key? : DatabaseChange → Option DatabaseRecord
  | .update key _ _ | .delete key _ => some key
  | .insert _ => none

def ambiguousRow : MutateError :=
  .browser ⟨"ambiguous_row", "A change matched more than one row, so nothing was saved."⟩

/-- A pass over a batch's changes. -/
structure MutatePass (σ : Type) where
  applied : Nat
  conflicts : List DatabaseConflict
  database : σ

def passChange (pass : MutatePass σ) (index : Nat) (change : DatabaseChange) : Except MutateError (MutatePass σ) := do
  let (changed, database) ← applyChange engine table pass.database change
  match change.key? with
  | some key =>
      if changed = 0 then
        let current ← currentRow engine table database key
        return { pass with conflicts := pass.conflicts ++ [⟨index, current⟩], database }
      else if 1 < changed then .error ambiguousRow
      else return { pass with applied := pass.applied + changed, database }
  | none =>
      if 1 < changed then .error ambiguousRow
      else return { pass with applied := pass.applied + changed, database }

def passChanges (pass : MutatePass σ) : List (DatabaseChange × Nat) → Except MutateError (MutatePass σ)
  | [] => .ok pass
  | (change, index) :: rest => do
      passChanges (← passChange engine table pass index change) rest

/-- What may go wrong around a batch's changes: the lock, the job's claim of its commit, and the commit. -/
structure MutateJob where
  begins : Except String Unit
  claimCommit : Except String Unit
  commit : Except String Unit

def inTransaction {α : Type} (job : MutateJob) (database : σ) (run : Except MutateError (α × σ))
    (shouldCommit : α → Bool) : Except MutateError α × σ :=
  match job.begins, run with
  | .error message, _ => (.error (.sqlite message), database)
  | .ok _, .error error => (.error error, database)
  | .ok _, .ok (result, after) =>
      if shouldCommit result then
        match job.claimCommit, job.commit with
        | .ok _, .ok _ => (.ok result, after)
        | .error message, _ | .ok _, .error message => (.error (.sqlite message), database)
      else (.ok result, database)

/-- The table that a batch may change the rows of. -/
def editableTable (entries : List SchemaEntry) (name : String) : Except MutateError DatabaseTable := do
  let table ← requireTable entries name
  if table.kind ≠ .table ∨ table.rowIdentity = none then
    .error (.browser ⟨"read_only_table", table.name ++ " has no primary key or rowid, so its rows cannot be edited"⟩)
  else return table

def mutateResult (pass : MutatePass σ) : DatabaseMutateResult :=
  if 0 < pass.conflicts.length then ⟨0, pass.conflicts⟩ else ⟨pass.applied, pass.conflicts⟩

def sqliteMutate (entries : List SchemaEntry) (job : MutateJob) (input : DatabaseMutateInput) (database : σ) :
    Except MutateError DatabaseMutateResult × σ :=
  match editableTable entries input.table with
  | .error error => (.error error, database)
  | .ok table =>
      inTransaction job database ((passChanges engine table ⟨0, [], database⟩ input.changes.zipIdx).map fun pass =>
          (mutateResult pass, pass.database))
        fun result => result.conflicts.isEmpty

end

/-! ## What the browser loads -/

end Kiln.Relay
