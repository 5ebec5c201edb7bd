/-
  Reading catalogs.

  Only the code of a pack, the type of a document and three texts of a rule have to be given; the
  rest has defaults.

  * `Catalog.ofText` reads the YAML text of a catalog, `Catalog.ofFile` a file with one.
-/
import Waybill.Catalog.Import
import Waybill.Text.Utf8
import Waybill.Yaml.Reading

namespace Waybill

open Waybill.Mapping Waybill.Yaml

/-- The page format of its exact name. -/
def Catalog.pageFormat? (name : String) : Option PageFormat :=
  [PageFormat.a4, .a5].find? fun f => f.name == name

/-- The rule of a node. -/
def Catalog.rule? (n : Node) : Option Rule := do
  let parts ← n.parts?
    ["worksheet_name", "cell_ref", "source_key", "transform", "required", "sequence"]
  return {
    worksheet := ← parts.required 0 Node.asText
    cell := ← parts.required 1 Node.asText
    source := ← parts.required 2 Node.asText
    transform := ← parts.withDefault 3 "" Node.asText
    required := ← parts.withDefault 4 false Node.asBool
    sequence := ← parts.withDefault 5 0 (Node.asNatBelow (2 ^ 32)) }

/-- The document of a node. -/
def Catalog.DocumentEntry.ofNode? (n : Node) : Option Catalog.DocumentEntry := do
  let parts ← n.parts? ["doc_type", "variant", "sequence", "enabled", "template", "mappings"]
  return {
    type := ← parts.required 0 Node.asText
    variant := ← parts.withDefault 1 "" Node.asText
    sequence := ← parts.withDefault 2 1 (Node.asNatBelow (2 ^ 32))
    enabled := ← parts.withDefault 3 true Node.asBool
    template := ← parts.optional 4 Node.asText
    rules := ← parts.withDefault 5 [] (Node.asList Catalog.rule?) }

/-- The pack of a node. -/
def Catalog.PackEntry.ofNode? (n : Node) : Option Catalog.PackEntry := do
  let parts ← n.parts?
    ["code", "name", "active", "default_page_format", "fallback_page_format", "documents"]
  return {
    code := ← parts.required 0 Node.asText
    name := ← parts.withDefault 1 "" Node.asText
    active := ← parts.withDefault 2 true Node.asBool
    defaultFormat := ← parts.withDefault 3 .a4 (Node.asWord Catalog.pageFormat?)
    fallbackFormat := ← parts.optional 4 (Node.asWord Catalog.pageFormat?)
    documents := ← parts.withDefault 5 [] (Node.asList Catalog.DocumentEntry.ofNode?) }

/-- The catalog of a node. -/
def Catalog.ofNode? (n : Node) : Option Catalog := do
  let parts ← n.parts? ["packs"]
  return ⟨← parts.withDefault 0 [] (Node.asList Catalog.PackEntry.ofNode?)⟩

/-- The catalog of a text. -/
def Catalog.ofText (text : String) : Except CatalogError Catalog :=
  match Yaml.ofText? Catalog.ofNode? text with
  | some catalog => .ok catalog
  | none => .error (.malformed "no YAML document with packs")

/-- The catalog in a file. -/
def Catalog.ofFile (read : Catalog.ReadFile) (path : String) : Except CatalogError Catalog := do
  let bytes ← (read path).mapError (.unreadable path)
  match Text.decode? bytes with
  | none => throw (.unreadable path "no valid text")
  | some text => Catalog.ofText text

end Waybill
