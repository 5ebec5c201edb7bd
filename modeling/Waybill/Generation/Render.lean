/-
  Rendering documents to spreadsheets.

  * `templateOf` finds the template of a document: its own, or a file in the template directories;
  * `payloadOf` is what the rules of a document see;
  * `renderJob` fills the template of one job, `renderPack` renders a whole pack;
  * `Bundle` is what is served instead of a PDF file: one spreadsheet, or an archive of several.
-/
import Waybill.Files.Path
import Waybill.Generation.Plan

namespace Waybill.Generation

open Waybill.Mapping Waybill.Payload Waybill.Sheet Waybill.Store Waybill.Files

/-! ## Templates -/

/-- What the first of these files that there is gives: its content, or that it cannot be read. -/
def searchTemplate (file : String → Option (Except String ByteArray)) :
    List String → Option (Except PackError ByteArray)
  | [] => none
  | path :: paths =>
    match file path with
    | some content => some (content.mapError (.templateIo path))
    | none => searchTemplate file paths

/-- The template of a document: its own, or the first file of its template name in the template
    directories; a file that cannot be read ends the search. -/
def templateOf (setting : Setting) (d : Document) : Except PackError ByteArray :=
  match d.template with
  | some t => .ok t.bytes
  | none =>
    let paths := match d.templateName? with
      | some name => setting.templateDirs.map fun dir => joined dir name
      | none => []
    match searchTemplate setting.templateFile paths with
    | some found => found
    | none =>
      .error (.missingTemplate d.type (if paths.isEmpty then "none" else ", ".intercalate paths))

/-! ## Jobs -/

/-- What the rules of a document see: the shipment, the carton, and the document itself. -/
def payloadOf (shipment carton : Option Value) (d : Document) (today : Calendar.Date) : Value :=
  .ofFields [
    ("shipment", shipment.getD .empty),
    ("carton", carton.getD .empty),
    ("document", .ofFields [
      ("doc_type", .ofText d.type),
      ("variant", .ofText d.variant),
      ("generated_on", .scalar (.date today))])]

/-- The workbook of a template filled by rules, as bytes. -/
def filled (format : Format) (template : ByteArray) (rules : List Rule) (payload : Value) :
    Except PackError ByteArray := do
  let book ← (format.read template).mapError .workbook
  match fill rules payload book with
  | (.ok _, book) => (Workbook.toBytes book).mapError .workbook
  | (.error e, _) => throw (.fill e)

/-- Renders one job. -/
def renderJob (setting : Setting) (p : Plan) (j : Job) : Work PackError ByteArray := do
  let template ← liftM (templateOf setting j.document)
  let rules ← Work.attempt .store (.store (do return (← get).rulesOf j.document.id))
  let today ← Work.ask .today
  liftM (filled setting.format template rules (payloadOf p.shipment j.carton j.document today))

/-- A rendered spreadsheet. -/
structure Rendered where
  name : String
  bytes : ByteArray
  deriving DecidableEq, Inhabited

/-- The spreadsheet as a file of an archive. -/
def Rendered.entry (r : Rendered) : Archive.Entry := ⟨r.name, true, r.bytes.data.toList⟩

/-- Renders jobs in order. -/
def renderJobs (setting : Setting) (p : Plan) : List Job → Work PackError (List Rendered)
  | [] => return []
  | j :: js => do
    let bytes ← renderJob setting p j
    return ⟨j.stem ++ ".xlsx", bytes⟩ :: (← renderJobs setting p js)

/-- Renders every document of a pack. -/
def renderPack (setting : Setting) (request : Request) : Work PackError (List Rendered) := do
  let p ← plan setting request
  let js ← liftM (jobs setting.provider p request.shipment)
  renderJobs setting p js

/-! ## Bundles -/

/-- Spreadsheets to be served: a file with the kind of its content. -/
structure Bundle where
  name : String
  contentType : String
  bytes : ByteArray
  deriving DecidableEq, Inhabited

/-- The kind of content of an archive. -/
def zipContentType : String := "application/zip"

/-- Bundles spreadsheets: one is passed on, several go into an archive named for the pack and the
    moment. -/
def bundle (archive : Archive.Writer) (code : String) (now : Calendar.Instant) :
    List Rendered → Except PackError Bundle
  | [] => .error (.nothingRendered code)
  | [r] => .ok ⟨r.name, Xlsx.contentType, r.bytes⟩
  | rs => do
    let bytes ← (archive (rs.map Rendered.entry)).mapError .bundle
    return ⟨"print-pack-" ++ code ++ "-" ++ now.stamp ++ ".zip", zipContentType, bytes⟩

end Waybill.Generation
