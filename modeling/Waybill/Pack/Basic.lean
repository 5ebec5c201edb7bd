/-
  Packs and their documents.

  * `Field` is a stored value of a closed vocabulary, or a text outside of it, which is kept as it
    was found and refused on reading;
  * `PageFormat` is the size of a printed page;
  * `Pack`, `TemplateFile` and `Document` are what is printed; `Pack.toJson` describes a pack;
  * `Document.templateName?` and `Document.snapshotName` are the names of template files.
-/
import Waybill.Json.Basic
import Waybill.Text.Blank
import Waybill.Text.Quoted

namespace Waybill

/-! ## Vocabularies -/

/-- A text that is no value of a vocabulary. -/
structure UnknownWord where
  kind : String
  text : String
  deriving DecidableEq, Inhabited

/-- The text of the error. -/
def UnknownWord.message (w : UnknownWord) : String :=
  "unknown " ++ w.kind ++ " value: " ++ Text.quoted w.text

/-- A stored value: one of the vocabulary, or a text outside of it. -/
inductive Field (α : Type) where
  | known (value : α)
  | unknown (word : UnknownWord)
  deriving DecidableEq, Inhabited

/-- The value read from what was stored. -/
def Field.ofRead {α : Type} : Except UnknownWord α → Field α
  | .ok value => .known value
  | .error word => .unknown word

/-- The number that names a record. -/
abbrev Id : Type := Int

/-- The size of a printed page. -/
inductive PageFormat where
  | a4
  | a5
  deriving DecidableEq, Inhabited

namespace PageFormat

/-- The name of a page format. -/
def name : PageFormat → String
  | .a4 => "A4"
  | .a5 => "A5"

/-- The page format of a name, in either case and with any blanks around it. -/
def ofName (s : String) : Except UnknownWord PageFormat :=
  match String.ofList ((Text.trimmed s.toList).map Char.toUpper) with
  | "A4" => .ok .a4
  | "A5" => .ok .a5
  | _ => .error ⟨"page format", s⟩

end PageFormat

/-! ## Packs and documents -/

/-- A pack: documents that are printed together. -/
structure Pack where
  id : Id
  code : String
  name : String
  active : Bool
  defaultFormat : PageFormat
  fallbackFormat : Option PageFormat
  deriving DecidableEq, Inhabited

/-- What there is to know of a pack. -/
def Pack.toJson (p : Pack) : Json :=
  .record [
    ("id", .int p.id),
    ("code", .text p.code),
    ("name", .text p.name),
    ("active", .bool p.active),
    ("default_page_format", .text p.defaultFormat.name),
    ("fallback_page_format", .ofOption (fun f => .text f.name) p.fallbackFormat)]

/-- A template file. -/
structure TemplateFile where
  name : String
  bytes : ByteArray
  deriving DecidableEq, Inhabited

/-- The template file as it is shown: by its name and length. -/
def TemplateFile.shown (t : TemplateFile) : String :=
  Text.fields "TemplateFile" [("name", Text.quoted t.name), ("len", toString t.bytes.size)]

/-- A template that counts as one: a file without content does not. -/
def TemplateFile.present? : Option TemplateFile → Option TemplateFile
  | some t => if t.bytes.isEmpty then none else some t
  | none => none

/-- A document of a pack, by its type and variant. -/
structure Document where
  id : Id
  pack : Id
  packCode : String
  type : String
  variant : String
  sequence : Nat
  enabled : Bool
  template : Option TemplateFile
  deriving DecidableEq, Inhabited

namespace Document

/-- The name of the document's template file in a directory of templates; none when a part of it
    is blank. -/
def templateName? (d : Document) : Option String :=
  let parts := [Text.trim d.packCode, Text.trim d.type, Text.trim d.variant]
  if parts.any (·.isEmpty) then none
  else some ("__".intercalate parts ++ ".xlsx")

/-- The name that the document's template gets in a version. -/
def snapshotName (d : Document) (version : Nat) : String :=
  let variant := Text.trim d.variant
  "__".intercalate [Text.trim d.packCode, Text.trim d.type,
    if variant.isEmpty then "default" else variant, "v" ++ toString version] ++ ".xlsx"

end Document

end Waybill
