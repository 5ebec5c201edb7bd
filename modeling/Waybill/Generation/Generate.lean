/-
  Generating a pack: an artifact with the PDF file of all its documents.

  Once the artifact exists, every document is rendered, converted and added to it in turn; the
  files are put together when there are several.  A failure is noted on the artifact, which stays
  with the documents added so far.

  * `renderArtifact` does the work for an artifact;
  * `generate` plans, adds the artifact, and does the work;
  * `generateOrRender` serves spreadsheets instead when a conversion fails.
-/
import Waybill.Digest.Sha256
import Waybill.Generation.Render
import Waybill.Store.Artifacts

namespace Waybill.Generation

open Waybill.Store

/-- Renders and converts one job and adds it to the artifact; gives the PDF file. -/
def convertJob (setting : Setting) (p : Plan) (artifact : Id) (j : Job) :
    Work PackError ByteArray := do
  let xlsxName := j.stem ++ ".xlsx"
  let xlsx ← renderJob setting p j
  let pdf ← Work.attempt .conversion (.convert xlsx xlsxName setting.timeout)
  let _ ← Work.attempt .store (.store (insertItem {
    id := 0
    artifact
    type := j.document.type
    variant := j.document.variant
    sequence := j.document.sequence
    xlsxName
    xlsx
    pdfName := j.stem ++ ".pdf"
    pdf }))
  return pdf

/-- The PDF files of jobs in order. -/
def convertJobs (setting : Setting) (p : Plan) (artifact : Id) :
    List Job → Work PackError (List ByteArray)
  | [] => return []
  | j :: js => do
    let pdf ← convertJob setting p artifact j
    return pdf :: (← convertJobs setting p artifact js)

/-- The files put together: a single one is itself. -/
def mergeAll (code : String) : List ByteArray → Work PackError ByteArray
  | [] => throw (.nothingRendered code)
  | [pdf] => return pdf
  | pdfs => Work.attempt .pdf (.merge pdfs)

/-- Does all the work for an artifact. -/
def renderArtifact (setting : Setting) (p : Plan) (js : List Job) (artifact : Id) :
    Work PackError Artifact := do
  let pdfs ← convertJobs setting p artifact js
  let pdf ← mergeAll p.pack.code pdfs
  let now ← Work.ask .now
  Work.attempt .store (.store (finalize artifact
    ("print-pack-" ++ p.pack.code ++ "-" ++ now.stamp ++ ".pdf") pdf
    (Digest.sha256Hex pdf)))

/-- Generates a pack. -/
def generate (setting : Setting) (request : Request) : Work PackError Artifact := do
  let p ← plan setting request
  let js ← liftM (jobs setting.provider p request.shipment)
  let now ← Work.ask .now
  let artifact ← Work.attempt .store (.store (insertArtifact {
    packCode := p.pack.code
    shipment := request.shipment
    carton := request.carton
    createdBy := request.user
    createdAt := now }))
  tryCatch (renderArtifact setting p js artifact.id) fun e => do
    let _ ← Work.ask (.store (markFailed artifact.id e.message))
    throw e

/-- What a request is answered with. -/
inductive Output where
  | pdf (artifact : Artifact)
  | xlsx (bundle : Bundle)
  deriving Inhabited

/-- Generates a pack; when a conversion fails and spreadsheets may be served, renders them
    instead. -/
def generateOrRender (setting : Setting) (request : Request) : Work PackError Output :=
  tryCatch (do return .pdf (← generate setting request)) fun e => do
    match e, setting.fallback with
    | .conversion _, true =>
      let rendered ← renderPack setting request
      let now ← Work.ask .now
      return .xlsx (← liftM (bundle setting.archive (Text.trim request.pack) now rendered))
    | _, _ => throw e

end Waybill.Generation
