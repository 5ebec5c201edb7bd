/-
  Pages of several PDF documents in one.

  The objects of the documents are pooled under numbers of their own.  One catalog and one node
  of the page tree are kept, the first of each in the pool; every page is put under that node
  with the attributes it had from the nodes above it.

  * `inheritable` are the attributes that a page takes from the nodes above it;
  * `Document.page?` is a page with these attributes on it;
  * `Pool` is what has been gathered, `Pool.add` gathers one more document;
  * `Writing` is how documents are written: what compresses streams, and what saves a document;
  * `merge` puts documents together, `mergeFiles` files.

  Statement: `next_add` (the numbers that a document takes).
-/
import Waybill.Pdf.Compress
import Waybill.Pdf.Error
import Waybill.Pdf.Reader
import Waybill.Pdf.Renumber
import Waybill.Pdf.Writer

namespace Waybill.Pdf

/-! ## Attributes from above -/

/-- The attributes that a page may have from the nodes above it. -/
def inheritable : List String :=
  ["MediaBox", "CropBox", "Resources", "Rotate"]

/-- How many nodes above a page are looked at; a page tree may lead back to itself. -/
def depthLimit : Nat := 64

/-- The reference to the node above. -/
def Dict.parent? (d : Dict) : Option Ref :=
  (d.get? "Parent").bind Object.ref?

/-- A page with an attribute of a node, unless it has one. -/
def inherit (node page : Dict) (name : String) : Dict :=
  if page.has name then page
  else match node.get? name with
    | some v => page.set name v
    | none => page

/-- A page with the attributes of the nodes from a reference on upwards, the nearest first. -/
def Document.inherited (d : Document) : Nat → Option Ref → Dict → Dict
  | 0, _, page => page
  | _, none, page => page
  | n + 1, some r, page =>
    match d.dict? r with
    | none => page
    | some node => inherited d n node.parent? (inheritable.foldl (inherit node) page)

/-- A page with the attributes of the nodes above it. -/
def Document.page? (d : Document) (r : Ref) : Option Dict :=
  (d.dict? r).map fun page => d.inherited depthLimit page.parent? page

/-! ## The pool -/

/-- What has been gathered: the pages in order, all objects, and the next number. -/
structure Pool where
  pages : List (Ref × Dict)
  objects : Objects
  next : Nat
  deriving Inhabited

namespace Pool

/-- A pool with nothing in it. -/
def empty : Pool := ⟨[], [], 1⟩

/-- The pool with one more document. -/
def add (p : Pool) (d : Document) : Pool :=
  let d := d.renumber p.next
  { pages := p.pages ++ d.pages.filterMap fun r => (d.page? r).map (r, ·)
    objects := p.objects ++ d.objects
    next := p.next + d.objects.length }

theorem next_add (p : Pool) (d : Document) : (p.add d).next = p.next + d.objects.length := by
  simp [add]

/-- The first dictionary of a type. -/
def first? (p : Pool) (type : String) : Option (Ref × Dict) :=
  p.objects.findSome? fun (r, o) =>
    if o.typeName? = some type then o.dict?.map (r, ·) else none

/-- The types of which no object is kept for its own sake. -/
def dropped : List String :=
  ["Catalog", "Pages", "Page", "Outlines", "Outline"]

/-- The objects that are kept as they are. -/
def others (p : Pool) : Objects :=
  p.objects.filter fun (_, o) => (o.typeName?.map (dropped.contains ·)) ≠ some true

/-- The pages under the one node, with the other objects. -/
def merged (p : Pool) (catalog root : Ref × Dict) : Document :=
  let withPages := p.pages.foldl (fun objects page =>
    objects.insert page.1 (.dict (page.2.set "Parent" (.ref root.1)))) p.others
  let node := ("Parent" :: inheritable).foldl (fun d name => Dict.erase name d) root.2
  let node := (node.set "Count" (.int p.pages.length)).set "Kids"
    (.array (p.pages.map fun page => .ref page.1))
  let top := (catalog.2.set "Pages" (.ref root.1)).erase "Outlines"
  { version := "1.5"
    trailer := [("Root", .ref catalog.1)]
    objects := (withPages.insert root.1 (.dict node)).insert catalog.1 (.dict top) }

end Pool

/-! ## Merging -/

/-- How documents are written: what compresses their streams, and what makes a file of one. -/
structure Writing where
  zlib : Compressor
  save : Document → Except String ByteArray

/-- Documents are written with streams as they are, if these are no longer so. -/
def Writing.plain : Writing where
  zlib := Archive.zlib
  save d := .ok d.toBytes

/-- The documents in one. -/
def merge (zlib : Compressor) (documents : List Document) : Except PdfError Document := do
  let pool := documents.foldl Pool.add .empty
  let some catalog := pool.first? "Catalog" | throw (.unreadable 0 "catalog root not found")
  let some root := pool.first? "Pages" | throw (.unreadable 0 "page tree root not found")
  return ((pool.merged catalog root).renumber 1).compress zlib

/-- The documents in files, the first of which has an index. -/
def readFiles : Nat → List ByteArray → Except PdfError (List Document)
  | _, [] => .ok []
  | index, file :: files => do
    let d ← (Document.ofBytes? file).mapError fun e => .unreadable index e.message
    return d :: (← readFiles (index + 1) files)

/-- The documents of files in one file.  A single file stays as it is. -/
def mergeFiles (writing : Writing) (files : List ByteArray) : Except PdfError ByteArray := do
  if files.isEmpty then throw .empty
  let documents ← readFiles 0 files
  match files with
  | [file] => return file
  | _ => (writing.save (← merge writing.zlib documents)).mapError .unwritable

end Waybill.Pdf
