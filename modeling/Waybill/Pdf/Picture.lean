/-
  What a PDF document shows, with references followed.

  * `Picture` is a value without references: what they lead to stands in their place;
  * `Document.picture` is the picture of an object, without the nodes above pages;
  * `Outline` are the pages of a document with its catalog and the root of its page tree.
-/
import Waybill.Decimal.Shortest
import Waybill.Json.Basic
import Waybill.Pdf.Document
import Waybill.Pdf.Filter
import Waybill.Text.Octets

namespace Waybill.Pdf

/-! ## Pictures -/

/-- A value in which references have been followed. -/
inductive Picture where
  | null
  | bool (b : Bool)
  | int (n : Int)
  | real (bits : UInt32)
  | name (text : String)
  | string (text : String)
  | array (items : List Picture)
  | dict (entries : List (String × Picture))
  | stream (entries : List (String × Picture)) (content : List UInt8)
  /-- A reference to no object. -/
  | missing
  /-- A reference to an object around it. -/
  | cycle
  deriving Inhabited

mutual

/-- The picture of an object, given what to show for each reference. -/
def Object.picture (follow : Ref → Picture) : Object → Picture
  | .null => .null
  | .bool b => .bool b
  | .int n => .int n
  | .real bits => .real bits
  | .name text => .name text
  | .string text _ => .string text
  | .array items => .array (pictures follow items)
  | .dict entries => .dict (pictureEntries follow ["Parent"] entries)
  | .stream entries content =>
    .stream (pictureEntries follow ["Parent", "Length", "Filter"] entries)
      (shownContent entries content)
  | .ref r => follow r

/-- The pictures of items. -/
def pictures (follow : Ref → Picture) : List Object → List Picture
  | [] => []
  | o :: items => o.picture follow :: pictures follow items

/-- The pictures of entries but for those left out. -/
def pictureEntries (follow : Ref → Picture) (left : List String) :
    List (String × Object) → List (String × Picture)
  | [] => []
  | (name, o) :: entries =>
    if left.contains name then pictureEntries follow left entries
    else (name, o.picture follow) :: pictureEntries follow left entries

end

namespace Document

/-- The picture of what a reference leads to, inside the objects `around`; at most `n`
    references follow each other. -/
def follow (d : Document) : Nat → List Ref → Ref → Picture
  | 0, _, _ => .cycle
  | n + 1, around, r =>
    if around.contains r then .cycle
    else match d.find? r with
      | none => .missing
      | some o => o.picture (follow d n (r :: around))

/-- The picture of a dictionary at a reference, but for some of its entries. -/
def picture (d : Document) (r : Ref) (left : List String) (entries : Dict) : Picture :=
  .dict (pictureEntries (d.follow (d.objects.length + 1) [r]) left entries)

end Document

/-! ## Outlines -/

/-- The pages of a document with whether each lies right under the root of the page tree, the
    number of objects of each type, the catalog, and the root of the page tree. -/
structure Outline where
  version : String
  pages : List (Picture × Bool)
  types : List (String × Nat)
  catalog : Picture
  root : Picture
  deriving Inhabited

/-- The type under which an object is counted. -/
def countedType (o : Object) : String :=
  ((o.entries?.bind Dict.typeName?)).getD "other"

/-- How often each of some words occurs. -/
def counted (words : List String) : List (String × Nat) :=
  words.eraseDups.map fun w => (w, words.count w)

/-- What a document shows; nothing if it has no catalog. -/
def Document.outline? (d : Document) : Option Outline := do
  let top ← (d.trailer.get? "Root").bind Object.ref?
  let catalog ← d.catalog?
  let root := d.pagesRef?
  let page := fun r => (d.dict? r).map fun page =>
    (d.picture r ["Parent"] page, decide ((page.get? "Parent").bind Object.ref? = root))
  return {
    version := d.version
    pages := d.pages.filterMap page
    types := counted ((d.objects.map fun o => countedType o.2).filter (· ≠ "XRef"))
    catalog := d.picture top ["Parent", "Pages"] catalog
    root := (root.bind fun r => (d.dict? r).map (d.picture r ["Parent", "Kids"])).getD .null }

/-! ## Pictures as JSON -/

mutual

/-- A picture as JSON: a name after a slash, a string or a real number in a record of its
    own. -/
def Picture.toJson : Picture → Json
  | .null => .null
  | .bool b => .bool b
  | .int n => .int n
  | .real bits => .record [("real", .text (Decimal.binary32.text bits.toNat))]
  | .name text => .text ("/" ++ Text.Octets.shown text)
  | .string text => .record [("string", .text (Text.Octets.shown text))]
  | .array items => .list (picturesToJson items)
  | .dict entries => .record (entriesToJson entries)
  | .stream entries content => .record [
      ("stream", .text (Text.decodeLossy ⟨content.toArray⟩)),
      ("dict", .record (entriesToJson entries))]
  | .missing => .text "<missing>"
  | .cycle => .text "<cycle>"

/-- Pictures as JSON. -/
def picturesToJson : List Picture → List Json
  | [] => []
  | p :: ps => p.toJson :: picturesToJson ps

/-- Entries as JSON. -/
def entriesToJson : List (String × Picture) → List (String × Json)
  | [] => []
  | (name, p) :: entries => (Text.Octets.shown name, p.toJson) :: entriesToJson entries

end

/-- What a document shows, as JSON. -/
def Outline.toJson (o : Outline) : Json :=
  .record [
    ("version", .text o.version),
    ("pages", .list (o.pages.map fun (page, under) =>
      .record [("page", page.toJson), ("parent_is_root", .bool under)])),
    ("types", .record (o.types.map fun (type, n) => (Text.Octets.shown type, .int n))),
    ("catalog", o.catalog.toJson),
    ("root", o.root.toJson)]

end Waybill.Pdf
