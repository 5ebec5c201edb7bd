/-
  Workbooks of spreadsheet files.

  A spreadsheet file is an archive of documents: one names the sheets, and each sheet has one with
  its cells and merged ranges.  What is read from a cell is text, whatever was written into it.

  * `Book` is such a workbook: its sheets with their cells and merged ranges;
  * `shown` is a content as it is read;
  * `Book.toBytes` and `Book.ofBytes?` write and read the file.

  A written cell wraps its text; unlike a workbook kept as plain data, any cell may be written.
-/
import Waybill.Archive.Zip
import Waybill.Decimal.Reading
import Waybill.Decimal.Shortest
import Waybill.Sheet.Workbook
import Waybill.Xml.Basic

namespace Waybill.Sheet.Xlsx

/-- The kind of content of a spreadsheet file. -/
def contentType : String :=
  "application/vnd.openxmlformats-officedocument.spreadsheetml.sheet"

/-! ## Sheets -/

/-- A cell with its content, and whether it wraps its text. -/
structure Slot where
  cell : Cell
  value : CellValue
  wrap : Bool
  deriving Inhabited

/-- A sheet. -/
structure Page where
  name : String
  slots : List Slot
  merged : List String
  deriving Inhabited

/-- A workbook. -/
structure Book where
  pages : List Page
  deriving Inhabited

/-- A content as it is read: its text, or nothing for an empty one. -/
def shown : CellValue → Option String
  | .text s => if s.isEmpty then none else some s
  | .number x => some (Decimal.ofFloat x)
  | .bool b => some (if b then "TRUE" else "FALSE")

namespace Book

/-- The sheet of a name, or the error. -/
def page (b : Book) (name : String) : Except WorkbookError Page :=
  match b.pages.find? fun p => p.name == name with
  | some p => .ok p
  | none => .error (.unknownSheet name)

/-- The merged ranges of a sheet. -/
def mergedRanges (b : Book) (name : String) : Except WorkbookError (List Range) := do
  (← b.page name).merged.mapM Range.read

/-- The content of a cell, as it is read. -/
def read (b : Book) (name : String) (c : Cell) : Except WorkbookError (Option CellValue) := do
  let p ← b.page name
  return ((p.slots.find? fun s => s.cell == c).bind fun s => shown s.value).map .text

/-- The cells with one of them replaced. -/
def put (slot : Slot) : List Slot → List Slot
  | [] => [slot]
  | s :: ss => if s.cell = slot.cell then slot :: ss else s :: put slot ss

/-- The sheets with a cell of the first one of a name replaced. -/
def putIn (name : String) (slot : Slot) : List Page → List Page
  | [] => []
  | p :: ps =>
    if p.name == name then { p with slots := put slot p.slots } :: ps
    else p :: putIn name slot ps

/-- The workbook with the content of a cell replaced. -/
def write (b : Book) (name : String) (c : Cell) (value : CellValue) :
    Except WorkbookError Book := do
  let _ ← b.page name
  return ⟨putIn name ⟨c, value, true⟩ b.pages⟩

/-! ## Writing the file -/

/-- An element with attributes. -/
def tag (name : String) (attributes : List (String × String)) (inside : List Xml) : Xml :=
  .element name attributes inside

/-- The name of a vocabulary of the file format. -/
def vocabulary (path : String) : String :=
  "http" ++ "://" ++ "schemas.openxmlformats.org/" ++ path

/-- The vocabulary of spreadsheet documents. -/
def mainSpace : String := vocabulary "spreadsheetml/2006/main"

/-- The vocabulary of relations between documents. -/
def relationSpace : String := vocabulary "officeDocument/2006/relationships"

/-- The vocabulary of the parts of an archive. -/
def packageSpace : String := vocabulary "package/2006/"

/-- A cell of a sheet. -/
def slotXml (s : Slot) : Xml :=
  let place := [("r", s.cell.text), ("s", if s.wrap then "1" else "0")]
  match s.value with
  | .text t => tag "c" (place ++ [("t", "inlineStr")])
      [tag "is" [] [tag "t" [("xml:space", "preserve")] [.text t]]]
  | .number x => tag "c" place [tag "v" [] [.text (Decimal.ofFloat x)]]
  | .bool b => tag "c" (place ++ [("t", "b")]) [tag "v" [] [.text (if b then "1" else "0")]]

/-- The rows of a sheet. -/
def rowsXml (slots : List Slot) : List Xml :=
  let ordered := slots.mergeSort fun a b =>
    a.cell.row < b.cell.row || (a.cell.row == b.cell.row && a.cell.column ≤ b.cell.column)
  let rows := (ordered.map (·.cell.row)).eraseDups
  rows.map fun row =>
    tag "row" [("r", toString row)]
      ((ordered.filter fun s => s.cell.row == row).map slotXml)

/-- The document of a sheet. -/
def pageXml (p : Page) : Xml :=
  let merged :=
    if p.merged.isEmpty then []
    else [tag "mergeCells" [("count", toString p.merged.length)]
      (p.merged.map fun r => tag "mergeCell" [("ref", r)] [])]
  tag "worksheet" [("xmlns", mainSpace)] (tag "sheetData" [] (rowsXml p.slots) :: merged)

/-- The document of styles: a plain one, and one that wraps text. -/
def stylesXml : Xml :=
  let plain := [("numFmtId", "0"), ("fontId", "0"), ("fillId", "0"), ("borderId", "0")]
  tag "styleSheet" [("xmlns", mainSpace)] [
    tag "fonts" [("count", "1")] [tag "font" [] []],
    tag "fills" [("count", "1")] [tag "fill" [] []],
    tag "borders" [("count", "1")] [tag "border" [] []],
    tag "cellStyleXfs" [("count", "1")] [tag "xf" plain []],
    tag "cellXfs" [("count", "2")] [
      tag "xf" plain [],
      tag "xf" (plain ++ [("applyAlignment", "1")]) [tag "alignment" [("wrapText", "1")] []]]]

/-- The name of the document of a sheet, seen from the workbook. -/
def pagePath (i : Nat) : String :=
  "worksheets/sheet" ++ toString (i + 1) ++ ".xml"

/-- The document that names the sheets. -/
def bookXml (b : Book) : Xml :=
  tag "workbook" [("xmlns", mainSpace), ("xmlns:r", relationSpace)] [
    tag "sheets" [] (b.pages.zipIdx.map fun p =>
      tag "sheet" [("name", p.1.name), ("sheetId", toString (p.2 + 1)),
        ("r:id", "rId" ++ toString (p.2 + 1))] [])]

/-- A relation to another document. -/
def relationXml (id kind target : String) : Xml :=
  tag "Relationship"
    [("Id", id), ("Type", relationSpace ++ "/" ++ kind), ("Target", target)] []

/-- The document that says where the sheets are. -/
def relationsXml (b : Book) : Xml :=
  tag "Relationships" [("xmlns", packageSpace ++ "relationships")]
    (relationXml "rIdStyles" "styles" "styles.xml" ::
      b.pages.zipIdx.map fun p =>
        relationXml ("rId" ++ toString (p.2 + 1)) "worksheet" (pagePath p.2))

/-- The document that says what kind every document is of. -/
def kindsXml (b : Book) : Xml :=
  let kind (path name : String) := tag "Override"
    [("PartName", path),
      ("ContentType", "application/vnd.openxmlformats-officedocument.spreadsheetml." ++ name ++
        "+xml")] []
  tag "Types" [("xmlns", packageSpace ++ "content-types")]
    (tag "Default" [("Extension", "xml"), ("ContentType", "application/xml")] [] ::
      tag "Default" [("Extension", "rels"),
        ("ContentType", "application/vnd.openxmlformats-package.relationships+xml")] [] ::
      kind "/xl/workbook.xml" "sheet.main" :: kind "/xl/styles.xml" "styles" ::
      b.pages.zipIdx.map fun p => kind ("/xl/" ++ pagePath p.2) "worksheet")

/-- The documents of the file. -/
def entries (b : Book) : List Archive.Entry :=
  let entry (name : String) (x : Xml) : Archive.Entry := ⟨name, true, x.document.toUTF8.toList⟩
  [entry "[Content_Types].xml" (kindsXml b),
    entry "_rels/.rels" (tag "Relationships" [("xmlns", packageSpace ++ "relationships")]
      [relationXml "rId1" "officeDocument" "xl/workbook.xml"]),
    entry "xl/workbook.xml" (bookXml b),
    entry "xl/_rels/workbook.xml.rels" (relationsXml b),
    entry "xl/styles.xml" stylesXml] ++
    b.pages.zipIdx.map fun p => entry ("xl/" ++ pagePath p.2) (pageXml p.1)

/-- The workbook as a file. -/
def toBytes (b : Book) : ByteArray :=
  ⟨(Archive.pack b.entries).toArray⟩

/-! ## Reading the file -/

/-- A document of the file. -/
def document? (files : List Archive.Entry) (path : String) : Option Xml := do
  let file ← files.find? fun f => f.name == path
  Xml.parse? (← Text.decode? ⟨file.content.toArray⟩)

/-- The text of a string item: its own and that of its runs. -/
def itemText (item : Xml) : String :=
  String.join (item.inside.map fun x =>
    if x.isNamed "t" then x.content
    else if x.isNamed "r" then String.join ((x.children "t").map Xml.content)
    else "")

/-- Whether each cell format wraps its text. -/
def wraps (styles : Option Xml) : List Bool :=
  match styles.bind (·.child? "cellXfs") with
  | none => []
  | some formats => (formats.children "xf").map fun f =>
      match (f.child? "alignment").bind (·.attribute? "wrapText") with
      | some v => v == "1" || v == "true"
      | none => false

/-- The content of a cell, if it has one. -/
def contentOf? (strings : List String) (c : Xml) : Option CellValue :=
  let value := (c.child? "v").map Xml.content
  match c.attribute? "t" with
  | some "s" => do return .text (← strings[← (← value).toNat?]?)
  | some "inlineStr" => (c.child? "is").map fun item => .text (itemText item)
  | some "b" => value.map fun v => .bool (v == "1" || v == "true")
  | some "str" | some "e" => value.map .text
  | _ => value.map fun v =>
      match Decimal.ofText? v with
      | some x => .number x
      | none => .text v

/-- A cell of a sheet; nothing for a place that is none. -/
def slotOf? (strings : List String) (formats : List Bool) (c : Xml) : Option Slot := do
  let cell ← Cell.ofText? (← c.attribute? "r")
  let format := ((c.attribute? "s").bind String.toNat?).getD 0
  return ⟨cell, (contentOf? strings c).getD (.text ""), formats.getD format false⟩

/-- The sheet that a document describes. -/
def pageOf (strings : List String) (formats : List Bool) (name : String) (x : Xml) : Page where
  name := name
  slots := ((x.children "sheetData").flatMap fun d =>
    (d.children "row").flatMap fun r => r.children "c").filterMap (slotOf? strings formats)
  merged := ((x.children "mergeCells").flatMap fun m => m.children "mergeCell").filterMap
    (·.attribute? "ref")

/-- The path of a document that is named seen from the workbook. -/
def pathOf (target : String) : String :=
  if target.startsWith "/" then String.ofList (target.toList.drop 1) else "xl/" ++ target

/-- The workbook of a file. -/
def ofBytes? (bytes : ByteArray) : Option Book := do
  let files ← Archive.unpack? bytes.toList
  let book ← document? files "xl/workbook.xml"
  let relations ← document? files "xl/_rels/workbook.xml.rels"
  let strings := match document? files "xl/sharedStrings.xml" with
    | some x => (x.children "si").map itemText
    | none => []
  let formats := wraps (document? files "xl/styles.xml")
  let pages ← ((← book.child? "sheets").children "sheet").mapM fun s => do
    let id ← s.attribute? "id"
    let relation ← (relations.children "Relationship").find? fun r => r.attribute? "Id" == some id
    let x ← document? files (pathOf (← relation.attribute? "Target"))
    return pageOf strings formats (← s.attribute? "name") x
  return ⟨pages⟩

end Book

instance : Workbook Book where
  sheetNames b := b.pages.map (·.name)
  mergedRanges := Book.mergedRanges
  read := Book.read
  write := Book.write
  toBytes b := .ok b.toBytes

end Waybill.Sheet.Xlsx
