/-
  Catalogs: descriptions of packs, their documents and rules.

  * `Catalog`, `Catalog.PackEntry` and `Catalog.DocumentEntry` are what a catalog says, every
    default filled in; `Catalog.toJson` says it again;
  * `CatalogError` is why a catalog is not imported, `CatalogError.message` says so;
  * `ImportReport` counts what an import did.
-/
import Waybill.History.Edit

namespace Waybill

open Waybill.Mapping Waybill.History

/-- A document as a catalog describes it; the template is named by its path. -/
structure Catalog.DocumentEntry where
  type : String
  variant : String
  sequence : Nat
  enabled : Bool
  template : Option String
  rules : List Rule
  deriving DecidableEq, Inhabited

/-- A pack as a catalog describes it. -/
structure Catalog.PackEntry where
  code : String
  name : String
  active : Bool
  defaultFormat : PageFormat
  fallbackFormat : Option PageFormat
  documents : List Catalog.DocumentEntry
  deriving DecidableEq, Inhabited

/-- A catalog. -/
structure Catalog where
  packs : List Catalog.PackEntry
  deriving DecidableEq, Inhabited

/-- The document in a catalog's words. -/
def Catalog.DocumentEntry.toJson (d : Catalog.DocumentEntry) : Json :=
  .record [
    ("doc_type", .text d.type),
    ("variant", .text d.variant),
    ("sequence", .int d.sequence),
    ("enabled", .bool d.enabled),
    ("template", .ofOption .text d.template),
    ("mappings", .list (d.rules.map Rule.toJson))]

/-- The pack in a catalog's words. -/
def Catalog.PackEntry.toJson (p : Catalog.PackEntry) : Json :=
  .record [
    ("code", .text p.code),
    ("name", .text p.name),
    ("active", .bool p.active),
    ("default_page_format", .text p.defaultFormat.name),
    ("fallback_page_format", .ofOption (fun f => .text f.name) p.fallbackFormat),
    ("documents", .list (p.documents.map Catalog.DocumentEntry.toJson))]

/-- The catalog in its own words. -/
def Catalog.toJson (c : Catalog) : Json :=
  .record [("packs", .list (c.packs.map Catalog.PackEntry.toJson))]

/-- Why a catalog is not imported. -/
inductive CatalogError where
  | unreadable (path detail : String)
  | malformed (detail : String)
  | emptyPackCode
  | store (error : StoreError)
  | history (error : HistoryError)
  deriving DecidableEq, Inhabited

/-- The text of an error. -/
def CatalogError.message : CatalogError → String
  | .unreadable path detail => "failed to read " ++ path ++ ": " ++ detail
  | .malformed detail => "invalid catalog: " ++ detail
  | .emptyPackCode => "pack code must not be empty"
  | .store e => e.message
  | .history e => e.message

/-- What an import did: how many packs and documents it went through, how many versions it
    recorded, how many documents it left unchanged or disabled. -/
structure ImportReport where
  packs : Nat
  documents : Nat
  versions : Nat
  unchanged : Nat
  disabled : Nat
  deriving DecidableEq, Inhabited

/-- The report before anything was done. -/
def ImportReport.empty : ImportReport := ⟨0, 0, 0, 0, 0⟩

/-- The report as a value. -/
def ImportReport.toJson (r : ImportReport) : Json :=
  .record [
    ("packs", .int r.packs),
    ("documents", .int r.documents),
    ("versions", .int r.versions),
    ("unchanged", .int r.unchanged),
    ("disabled", .int r.disabled)]

end Waybill
