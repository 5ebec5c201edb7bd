/-
  The store: everything that is kept between runs.

  A store has six tables.  A row is named by a number that its table has never given before; rows
  stand in the order of these numbers.

  * `Store` is the value of the tables, `Table` one of them;
  * `StoreError` is why the store refuses, `StoreError.message` says so;
  * `Action` is a step on the store, which changes nothing when it fails.

  Statement: `rows_push` (what adding a row does to a table).
-/
import Waybill.Artifact.Basic
import Waybill.History.Version

namespace Waybill

open Waybill.Mapping

/-! ## Tables -/

/-- Rows, and the last number given to one. -/
structure Table (α : Type) where
  rows : List α
  last : Int
  deriving Inhabited

namespace Table

/-- The table without rows. -/
def empty {α : Type} : Table α := ⟨[], 0⟩

/-- The number of the next row. -/
def next {α : Type} (t : Table α) : Id := t.last + 1

/-- The table with one more row, made from its number. -/
def push {α : Type} (t : Table α) (row : Id → α) : Table α :=
  ⟨t.rows ++ [row t.next], t.next⟩

/-- The table after a number was used up without a row. -/
def skip {α : Type} (t : Table α) : Table α := { t with last := t.next }

/-- The table with some rows changed. -/
def change {α : Type} (t : Table α) (which : α → Bool) (f : α → α) : Table α :=
  { t with rows := t.rows.map fun row => if which row then f row else row }

/-- The table without some rows. -/
def erase {α : Type} (t : Table α) (which : α → Bool) : Table α :=
  { t with rows := t.rows.filter fun row => !which row }

theorem rows_push {α : Type} (t : Table α) (row : Id → α) :
    (t.push row).rows = t.rows ++ [row t.next] := rfl

end Table

/-! ## Rows -/

/-- A pack as it is kept. -/
structure PackRow where
  id : Id
  code : String
  name : String
  active : Bool
  defaultFormat : Field PageFormat
  fallbackFormat : Option (Field PageFormat)
  deriving DecidableEq, Inhabited

/-- A document as it is kept. -/
structure DocumentRow where
  id : Id
  pack : Id
  type : String
  variant : String
  sequence : Nat
  enabled : Bool
  template : Option TemplateFile
  deriving DecidableEq, Inhabited

/-- A live rule of a document. -/
structure RuleRow where
  id : Id
  document : Id
  rule : Rule
  deriving DecidableEq, Inhabited

/-- The rules of a version as they are kept: themselves, or nothing that could be read. -/
inductive Snapshot where
  | rules (rules : List Rule)
  | unreadable
  deriving DecidableEq, Inhabited

/-- A version as it is kept. -/
structure VersionRow where
  id : Id
  document : Id
  number : Nat
  template : Option TemplateFile
  snapshot : Snapshot
  change : Field ChangeType
  note : String
  createdBy : Option String
  createdAt : Calendar.Instant
  deriving DecidableEq, Inhabited

/-- An artifact as it is kept, with the text in the place of its status when that is outside of
    the vocabulary. -/
structure ArtifactRow where
  artifact : Artifact
  unknown : Option UnknownWord
  deriving DecidableEq, Inhabited

/-- The store. -/
structure Store where
  packs : Table PackRow
  documents : Table DocumentRow
  rules : Table RuleRow
  versions : Table VersionRow
  artifacts : Table ArtifactRow
  items : Table ArtifactItem
  deriving Inhabited

/-- The store without any rows. -/
def Store.empty : Store := ⟨.empty, .empty, .empty, .empty, .empty, .empty⟩

/-! ## Errors and actions -/

/-- Why the store refuses. -/
inductive StoreError where
  /-- A row names a row of another table that is not there. -/
  | noSuchRow
  /-- A row has the same values as another one in the given columns. -/
  | notUnique (columns : List String)
  /-- A column has to have a value. -/
  | missingValue (column : String)
  /-- The column at a place of the answer holds a text outside of its vocabulary. -/
  | unknownWord (column : Nat) (word : UnknownWord)
  /-- The rules of a version cannot be read. -/
  | snapshot
  | notFound (kind : String) (id : Id)
  deriving DecidableEq, Inhabited

/-- The text of an error. -/
def StoreError.message : StoreError → String
  | .noSuchRow => "sqlite error: FOREIGN KEY constraint failed"
  | .notUnique columns => "sqlite error: UNIQUE constraint failed: " ++ ", ".intercalate columns
  | .missingValue column => "sqlite error: NOT NULL constraint failed: " ++ column
  | .unknownWord column word =>
    "sqlite error: Conversion error from type Text at index: " ++ toString column ++ ", " ++
      word.message
  | .snapshot => "json error: not a list of rules"
  | .notFound kind id => kind ++ " not found: " ++ toString id

/-- A step on the store: its answer with the store after it, or an error and no change. -/
abbrev Action (ε α : Type) : Type := StateT Store (Except ε) α

/-- The value of a column, or the error that names the column. -/
def Field.read {α : Type} (column : Nat) : Field α → Except StoreError α
  | .known value => .ok value
  | .unknown word => .error (.unknownWord column word)

/-- Runs an action; the store stays as it was when the action fails. -/
def Store.run {ε α : Type} (s : Store) (action : Action ε α) : Except ε α × Store :=
  match action s with
  | .ok (a, s) => (.ok a, s)
  | .error e => (.error e, s)

/-- The rows in the order of a number, rows of one number as they stood. -/
def inSequence {α : Type} (sequence : α → Nat) (rows : List α) : List α :=
  rows.mergeSort fun a b => sequence a ≤ sequence b

end Waybill
