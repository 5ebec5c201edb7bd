/-
  Workbooks: what a template offers to the rules that fill it.

  * `CellValue` is the content of a cell;
  * `WorkbookError` is why a workbook refuses, `WorkbookError.message` says so;
  * `Range.ofText?` reads a rectangle given by its corners;
  * `Workbook` are the operations of a kind of workbook.
-/
import Waybill.Sheet.Cell
import Waybill.Text.Quoted

namespace Waybill.Sheet

/-! ## Contents and errors -/

/-- The content of a cell. -/
inductive CellValue where
  | text (s : String)
  | number (x : Float)
  | bool (b : Bool)
  deriving Inhabited

/-- The text of a cell that holds text. -/
def CellValue.asText : CellValue → Option String
  | .text s => some s
  | _ => none

/-- Why a workbook refuses. -/
inductive WorkbookError where
  | invalidCell (text : String)
  | invalidRange (text : String)
  | unknownSheet (name : String)
  | format (detail : String)
  deriving DecidableEq, Inhabited

/-- The text of an error. -/
def WorkbookError.message : WorkbookError → String
  | .invalidCell text => "invalid cell reference: " ++ Text.quoted text
  | .invalidRange text => "invalid cell range: " ++ Text.quoted text
  | .unknownSheet name => "unknown worksheet: " ++ name
  | .format detail => "workbook format error: " ++ detail

/-- The cell that a text spells, or the error. -/
def Cell.read (s : String) : Except WorkbookError Cell :=
  match Cell.ofText? s with
  | some c => .ok c
  | none => .error (.invalidCell s)

/-- The rectangle given by two corners on either side of a colon, or the error. -/
def Range.read (s : String) : Except WorkbookError Range :=
  match Text.cutAt? [':'] s.toList with
  | none => .error (.invalidRange s)
  | some (a, b) => do
    let a ← Cell.read (String.ofList a)
    let b ← Cell.read (String.ofList b)
    return ofCorners a b

/-! ## Operations -/

/-- The operations of a kind of workbook. -/
class Workbook (β : Type) where
  /-- The names of the sheets, in order. -/
  sheetNames : β → List String
  /-- The merged ranges of a sheet. -/
  mergedRanges : β → String → Except WorkbookError (List Range)
  /-- The content of a cell. -/
  read : β → String → Cell → Except WorkbookError (Option CellValue)
  /-- The workbook with the content of a cell replaced. -/
  write : β → String → Cell → CellValue → Except WorkbookError β
  /-- The workbook as bytes, or why it cannot be written. -/
  toBytes : β → Except WorkbookError ByteArray

end Waybill.Sheet
