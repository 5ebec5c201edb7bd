/-
  Importing a catalog into the store.

  Packs are handled one after the other, and in each its documents; every step is an action, and
  the steps before an error stay done.  A document whose template and rules already are as the
  catalog says gets no new version.  Documents of a listed pack that the catalog does not list are
  disabled.

  * `Run` is a sequence of actions; `Run.step` is one of them;
  * `readTemplate` reads a template seen from the catalog's directory;
  * `importCatalog` does it all.
-/
import Waybill.Catalog.Basic
import Waybill.Files.Path

namespace Waybill.Catalog

open Waybill.Mapping Waybill.History Waybill.Store Waybill.Files

/-! ## Steps -/

/-- Actions one after another; those before an error stay done. -/
abbrev Run (α : Type) : Type := ExceptT CatalogError (StateM Store) α

/-- One action. -/
def Run.step {ε α : Type} (cause : ε → CatalogError) (action : Action ε α) : Run α :=
  fun s =>
    let (result, s) := s.run action
    (result.mapError cause, s)

/-! ## One document -/

/-- The content of a file, or the detail of why it cannot be read. -/
abbrev ReadFile : Type := String → Except String ByteArray

/-- The template file at a path seen from a directory. -/
def readTemplate (read : ReadFile) (directory path : String) : Except CatalogError TemplateFile :=
  let path := joined directory path
  match read path with
  | .ok bytes => .ok ⟨(fileName? path).getD "template.xlsx", bytes⟩
  | .error detail => .error (.unreadable path detail)

/-- Whether the live document is not as the catalog says, or has no version yet. -/
def differs (s : Store) (live : Document) (template : Option TemplateFile) (rules : List Rule) :
    Bool :=
  (template.isSome && live.template != template) ||
    s.nextNumber live.id == 1 ||
    s.rulesOf live.id != inSequence (·.sequence) (Rule.normalizedAll rules)

/-- What an import goes by: the files it reads, the directory they are seen from, and who signs. -/
structure Setting where
  read : ReadFile
  directory : String
  signature : Signature

/-- The note of the versions that an import records. -/
def importNote : String := "catalog import"

/-- Handles one document of a pack; gives its number and whether a version was recorded. -/
def importDocument (setting : Setting) (pack : Id) (d : DocumentEntry) : Run (Id × Bool) := do
  let template ← liftM (d.template.mapM (readTemplate setting.read setting.directory))
  let live ← Run.step .store (upsertDocument {
    pack
    type := Text.trim d.type
    variant := Text.trim d.variant
    sequence := d.sequence
    enabled := d.enabled })
  if differs (← get) live template d.rules then
    let _ ← Run.step .history
      (saveEdit live.id ⟨template.map some, some d.rules⟩ setting.signature importNote)
    return (live.id, true)
  else return (live.id, false)

/-- Handles documents in order; gives their numbers with the report. -/
def importDocuments (setting : Setting) (pack : Id) :
    List DocumentEntry → ImportReport → Run (List Id × ImportReport)
  | [], report => return ([], report)
  | d :: ds, report => do
    let (id, recorded) ← importDocument setting pack d
    let report := { report with
      documents := report.documents + 1
      versions := report.versions + (if recorded then 1 else 0)
      unchanged := report.unchanged + (if recorded then 0 else 1) }
    let (ids, report) ← importDocuments setting pack ds report
    return (id :: ids, report)

/-! ## Packs -/

/-- Disables documents. -/
def disableAll : List Id → Action StoreError Unit
  | [] => pure ()
  | id :: ids => do
    setEnabled id false
    disableAll ids

/-- Disables the enabled documents of a pack that are not listed, and tells how many. -/
def disableUnlisted (pack : Id) (listed : List Id) : Action StoreError Nat := do
  let dropped := ((← get).packDocuments pack).filter fun d => d.enabled && !listed.contains d.id
  disableAll (dropped.map (·.id))
  return dropped.length

/-- Handles one pack. -/
def importPack (setting : Setting) (p : PackEntry) (report : ImportReport) :
    Run ImportReport := do
  let code := Text.trim p.code
  if code.isEmpty then throw .emptyPackCode
  let name := Text.trim p.name
  let pack ← Run.step .store (upsertPack {
    code
    name := if name.isEmpty then code else name
    active := p.active
    defaultFormat := p.defaultFormat
    fallbackFormat := p.fallbackFormat })
  let (listed, report) ←
    importDocuments setting pack.id p.documents { report with packs := report.packs + 1 }
  let disabled ← Run.step .store (disableUnlisted pack.id listed)
  return { report with disabled := report.disabled + disabled }

/-- Handles packs in order. -/
def importPacks (setting : Setting) : List PackEntry → ImportReport → Run ImportReport
  | [], report => return report
  | p :: ps, report => do importPacks setting ps (← importPack setting p report)

/-- Imports a catalog. -/
def importCatalog (setting : Setting) (catalog : Catalog) : Run ImportReport :=
  importPacks setting catalog.packs .empty

end Waybill.Catalog
