/-
  Filling a workbook from a payload.

  Rules are applied in order.  A repeating rule writes one row below the other.  The first
  violation ends the filling; what was written before stays written.

  * `FillError` is a violation, `FillError.message` says so;
  * `content` is what a rule makes of one payload value;
  * `Filling` is a workbook with the merged ranges read so far, which are not read again;
  * `fill` applies rules and gives the workbook back in either case.
-/
import Waybill.Mapping.Rule
import Waybill.Payload.Path

namespace Waybill.Mapping

open Waybill.Payload Waybill.Sheet

/-! ## Violations -/

/-- Why the filling ends early. -/
inductive FillError where
  | unknownWorksheet (worksheet : String)
  | invalidCell (worksheet cell : String)
  | missingRequired (worksheet cell source : String)
  | notScalar (worksheet cell source : String)
  | workbook (error : WorkbookError)
  deriving DecidableEq, Inhabited

/-- The text of a violation. -/
def FillError.message : FillError → String
  | .unknownWorksheet worksheet => "unknown worksheet: " ++ worksheet
  | .invalidCell worksheet cell => "invalid cell reference " ++ worksheet ++ "!" ++ cell
  | .missingRequired worksheet cell source =>
    "missing required mapping value for " ++ worksheet ++ "!" ++ cell ++ " (" ++ source ++ ")"
  | .notScalar worksheet cell source =>
    "value for " ++ worksheet ++ "!" ++ cell ++ " (" ++ source ++ ") is not a scalar"
  | .workbook e => e.message

/-! ## Steps in a row -/

/-- A result together with the state it leaves. -/
abbrev Left (ε α : Type) : Type := Except ε Unit × α

/-- Runs a step for each element until one fails; the state stays as the last one left it. -/
def eachOf {ε α β : Type} (step : α → β → Left ε β) : List α → β → Left ε β
  | [], state => (.ok (), state)
  | a :: as, state =>
    match step a state with
    | (.ok _, state) => eachOf step as state
    | (.error e, state) => (.error e, state)

/-! ## One value -/

/-- What a rule puts into its cell for a payload value: nothing as an empty text, unless a value
    is required. -/
def content (rule : Rule) (target : Cell) (value : Option Value) : Except FillError CellValue :=
  if isMissing value then
    if rule.required then .error (.missingRequired rule.worksheet target.text rule.source)
    else .ok (.text "")
  else match value with
    | some (.scalar s) => .ok ((Transform.ofName rule.transform).apply s)
    | _ => .error (.notScalar rule.worksheet target.text rule.source)

variable {β : Type} [Workbook β]

/-- Writes one payload value into a cell, or into the anchor of its merged range. -/
def put (rule : Rule) (ranges : List Range) (target : Cell) (value : Option Value) (book : β) :
    Left FillError β :=
  match content rule target value with
  | .error e => (.error e, book)
  | .ok c =>
    match Workbook.write book rule.worksheet (redirected ranges target) c with
    | .ok book => (.ok (), book)
    | .error e => (.error (.workbook e), book)

/-! ## One rule -/

/-- Writes one row of a repeating rule. -/
def putRow (rule : Rule) (ranges : List Range) (first : Cell) (row : Option Value × Nat)
    (book : β) : Left FillError β :=
  match first.down row.2 with
  | none =>
    (.error (.invalidCell rule.worksheet (first.text ++ "+" ++ toString row.2)), book)
  | some target => put rule ranges target row.1 book

/-- Applies a rule whose cell and merged ranges are known. -/
def applyAt (rule : Rule) (payload : Value) (ranges : List Range) (first : Cell) (book : β) :
    Left FillError β :=
  if isRepeating rule.source then
    let rows := payload.rows rule.source
    if rule.required && rows.isEmpty then
      (.error (.missingRequired rule.worksheet first.text rule.source), book)
    else eachOf (putRow rule ranges first) rows.zipIdx book
  else put rule ranges first (payload.resolve rule.source) book

/-! ## Rules in a row -/

/-- A workbook that is being filled, with the merged ranges that were read so far. -/
structure Filling (β : Type) where
  book : β
  known : List (String × List Range)
  deriving Inhabited

/-- The merged ranges of a sheet, which are read once and known from then on. -/
def Filling.ranges (x : Filling β) (name : String) :
    Except WorkbookError (List Range × Filling β) :=
  match x.known.lookup name with
  | some ranges => .ok (ranges, x)
  | none => do
    let ranges ← Workbook.mergedRanges x.book name
    return (ranges, { x with known := (name, ranges) :: x.known })

/-- Applies a rule. -/
def applyRule (payload : Value) (rule : Rule) (x : Filling β) : Left FillError (Filling β) :=
  if !(Workbook.sheetNames x.book).contains rule.worksheet then
    (.error (.unknownWorksheet rule.worksheet), x)
  else match Cell.ofText? rule.cell with
    | none => (.error (.invalidCell rule.worksheet rule.cell), x)
    | some first =>
      match x.ranges rule.worksheet with
      | .error e => (.error (.workbook e), x)
      | .ok (ranges, x) =>
        let left := applyAt rule payload ranges first x.book
        (left.1, { x with book := left.2 })

/-- Applies rules in order until one is violated. -/
def fill (rules : List Rule) (payload : Value) (book : β) : Left FillError β :=
  let left := eachOf (applyRule payload) rules ⟨book, []⟩
  (left.1, left.2.book)

end Waybill.Mapping
