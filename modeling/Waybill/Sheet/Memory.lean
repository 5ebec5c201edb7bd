/-
  Workbooks kept as plain data.

  A sheet has a name, contents by cell text, and merged ranges as texts, which are read whenever
  they are needed.

  * `Book` is such a workbook; `Book.withSheet` and `Book.withMerged` build one;
  * `Book.ofBytes?` and `Book.toBytes` read and write it as JSON;
  * `Book.value?` looks a cell up by any of its spellings.

  A write to a cell inside a merged range is refused unless it is the anchor.
-/
import Waybill.Json.Parser
import Waybill.Json.Printer
import Waybill.Json.Reading
import Waybill.Sheet.Workbook

namespace Waybill.Sheet.Memory

/-! ## Sheets -/

/-- A sheet: contents in the order of the cell texts. -/
structure Page where
  name : String
  cells : List (String × CellValue)
  merged : List String
  deriving Inhabited

/-- A workbook. -/
structure Book where
  pages : List Page
  deriving Inhabited

namespace Book

/-- The workbook without sheets. -/
def empty : Book := ⟨[]⟩

/-- The first sheet of a name. -/
def page? (b : Book) (name : String) : Option Page :=
  b.pages.find? fun p => p.name == name

/-- The sheet of a name, or the error. -/
def page (b : Book) (name : String) : Except WorkbookError Page :=
  match b.page? name with
  | some p => .ok p
  | none => .error (.unknownSheet name)

/-- The sheets with a change to the first one of a name. -/
def changeFirst (name : String) (change : Page → Page) : List Page → List Page
  | [] => []
  | p :: ps => if p.name == name then change p :: ps else p :: changeFirst name change ps

/-- The workbook with one more sheet. -/
def withSheet (b : Book) (name : String) : Book :=
  ⟨b.pages ++ [⟨name, [], []⟩]⟩

/-- The workbook with one more merged range on the first sheet of a name. -/
def withMerged (b : Book) (name range : String) : Book :=
  ⟨changeFirst name (fun p => { p with merged := p.merged ++ [range] }) b.pages⟩

/-! ## Cells -/

/-- The merged ranges of a sheet. -/
def mergedRanges (b : Book) (name : String) : Except WorkbookError (List Range) := do
  (← b.page name).merged.mapM Range.read

/-- The content kept under a text. -/
def content? (p : Page) (key : String) : Option CellValue :=
  (p.cells.find? fun c => c.1 == key).map (·.2)

/-- The content of a cell. -/
def read (b : Book) (name : String) (c : Cell) : Except WorkbookError (Option CellValue) := do
  return content? (← b.page name) c.text

/-- The sheets with the content of a cell of one of them replaced. -/
def put (b : Book) (name : String) (c : Cell) (value : CellValue) : Book :=
  ⟨changeFirst name (fun p => { p with cells := Json.insertByName c.text value p.cells }) b.pages⟩

/-- The workbook with the content of a cell replaced. -/
def write (b : Book) (name : String) (c : Cell) (value : CellValue) :
    Except WorkbookError Book := do
  let ranges ← b.mergedRanges name
  if ranges.any fun r => r.contains c && r.anchor ≠ c then
    throw (.format ("cell " ++ c.text ++ " is a non-anchor merged cell"))
  return b.put name c value

/-- The content of a cell given by any of its spellings. -/
def value? (b : Book) (name cell : String) : Option CellValue := do
  let c ← Cell.ofText? cell
  content? (← b.page? name) c.text

/-! ## As JSON -/

/-- A content with its kind. -/
def valueToJson : CellValue → Json
  | .text s => .record [("type", .text "text"), ("value", .text s)]
  | .number x => .record [("type", .text "number"), ("value", .float x)]
  | .bool b => .record [("type", .text "bool"), ("value", .bool b)]

/-- A content from its kind and value. -/
def valueOfJson? (json : Json) : Option CellValue := do
  let parts ← Json.parts? ["type", "value"] json
  match ← parts.required 0 Json.asText with
  | "text" => return .text (← parts.required 1 Json.asText)
  | "number" => return .number (← parts.required 1 Json.asFloat)
  | "bool" => return .bool (← parts.required 1 Json.asBool)
  | _ => none

/-- A sheet with its fields in order. -/
def pageToJson (p : Page) : Json :=
  .record [
    ("name", .text p.name),
    ("cells", .record (p.cells.map fun c => (c.1, valueToJson c.2))),
    ("merged", .list (p.merged.map .text))]

/-- A sheet; contents and merged ranges may be left out. -/
def pageOfJson? (json : Json) : Option Page := do
  let parts ← Json.parts? ["name", "cells", "merged"] json
  let name ← parts.required 0 Json.asText
  let cells ← parts.withDefault 1 [] (Json.asMap valueOfJson?)
  let merged ← parts.withDefault 2 [] (Json.asList Json.asText)
  return ⟨name, cells, merged⟩

/-- The workbook as a value. -/
def toJson (b : Book) : Json :=
  .record [("sheets", .list (b.pages.map pageToJson))]

/-- The workbook of a value. -/
def ofJson? (json : Json) : Option Book := do
  let parts ← Json.parts? ["sheets"] json
  return ⟨← parts.required 0 (Json.asList pageOfJson?)⟩

/-- The workbook as bytes. -/
def toBytes (b : Book) : ByteArray :=
  b.toJson.toBytes

/-- The workbook given by bytes. -/
def ofBytes? (bytes : ByteArray) : Option Book :=
  (Json.ofBytes? bytes).bind ofJson?

end Book

instance : Workbook Book where
  sheetNames b := b.pages.map (·.name)
  mergedRanges := Book.mergedRanges
  read := Book.read
  write := Book.write
  toBytes b := .ok b.toBytes

end Waybill.Sheet.Memory
