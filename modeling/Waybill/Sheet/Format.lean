/-
  Kinds of workbooks.

  * `Format` is a kind of workbook: its operations, and how it is read from bytes;
  * `Format.memory` and `Format.xlsx` are the kinds that come with the library.

  Both kinds can always be written; another one may fail to be.
-/
import Waybill.Sheet.Memory
import Waybill.Sheet.Xlsx

namespace Waybill.Sheet

/-- A kind of workbook. -/
structure Format where
  /-- A workbook of the kind. -/
  Book : Type
  workbook : Workbook Book
  /-- The workbook that bytes hold, or why there is none. -/
  read : ByteArray → Except WorkbookError Book

attribute [instance] Format.workbook

namespace Format

/-- Workbooks kept as plain data. -/
def memory : Format where
  Book := Memory.Book
  workbook := inferInstance
  read bytes :=
    match Memory.Book.ofBytes? bytes with
    | some b => .ok b
    | none => .error (.format "not a workbook in plain data")

/-- Workbooks of spreadsheet files. -/
def xlsx : Format where
  Book := Xlsx.Book
  workbook := inferInstance
  read bytes :=
    match Xlsx.Book.ofBytes? bytes with
    | some b => .ok b
    | none => .error (.format "not a spreadsheet file")

end Format

end Waybill.Sheet
