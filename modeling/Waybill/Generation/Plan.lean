/-
  Planning a pack: its documents, what they are about, and how often each is rendered.

  * `Setting` is what generation goes by: the kind of workbook, templates, payloads, the time for a
    conversion;
  * `Plan` are the pack, its documents and the payloads asked for; `plan` makes it;
  * `Job` is one rendering of one document; `jobs` lists them, one per carton for the labels of a
    whole shipment.
-/
import Waybill.Archive.Zip
import Waybill.Generation.Step
import Waybill.Pack.Route
import Waybill.Payload.File
import Waybill.Sheet.Format
import Waybill.Store.Rules

namespace Waybill.Generation

open Waybill.Payload Waybill.Sheet Waybill.Store

/-! ## Settings -/

/-- What generation goes by. -/
structure Setting where
  format : Format
  /-- The directories searched for templates, in order. -/
  templateDirs : List String
  /-- What reading the regular file at a path gives, if there is one: its content, or why it cannot
      be read. -/
  templateFile : String → Option (Except String ByteArray)
  /-- How several spreadsheets are put into one file. -/
  archive : Archive.Writer
  provider : Provider
  /-- How long each request of a conversion may take, in milliseconds. -/
  timeout : Nat
  /-- Whether spreadsheets are served when a conversion fails. -/
  fallback : Bool

/-! ## Plans -/

/-- A pack to be rendered. -/
structure Plan where
  pack : Pack
  documents : List Document
  shipment : Option Value
  carton : Option Value

/-- The variant asked for, unless it is blank. -/
def wantedVariant (r : Request) : Option String :=
  (r.variant.map Text.trim).filter fun v => !v.isEmpty

/-- The active pack of a code with its enabled documents, read in one go. -/
def readPack (code : String) (variant : Option String) :
    Action StoreError (Option (Pack × List Document)) := do
  let s ← get
  match ← liftM (s.activePack? code) with
  | none => return none
  | some pack => return some (pack, s.enabledDocuments pack.id variant)

/-- What is known under a name that may be absent, or the error for an unknown one. -/
def found {α : Type} (find : String → Option α) (error : String → PackError) :
    Option String → Except PackError (Option α)
  | none => .ok none
  | some name =>
    match find name with
    | some a => .ok (some a)
    | none => .error (error name)

/-- Plans a pack. -/
def plan (setting : Setting) (request : Request) : Work PackError Plan := do
  match ← Work.attempt .store (.store (readPack request.pack (wantedVariant request))) with
  | none => throw (.unknownPack request.pack)
  | some (pack, documents) =>
    if documents.isEmpty then throw (.noDocuments pack.code)
    let shipment ← liftM (found setting.provider.shipment .unknownShipment request.shipment)
    let carton ← liftM (found setting.provider.carton .unknownCarton request.carton)
    return ⟨pack, documents, shipment, carton⟩

/-! ## Jobs -/

/-- One rendering of a document, for a carton perhaps; the suffix tells several ones apart. -/
structure Job where
  document : Document
  carton : Option Value
  suffix : String

/-- The name of the job's files, without an ending. -/
def Job.stem (j : Job) : String :=
  "-".intercalate [j.document.packCode, j.document.type, toString j.document.id] ++ j.suffix

/-- The type of the documents that may be rendered once per carton. -/
def destinationLabel : String := "destination_label"

/-- The variant of these documents for which they are. -/
def allLabels : String := "all_labels"

/-- The cartons that a document is rendered for one by one, if it is. -/
def targets (provider : Provider) (d : Document) (shipment : Option String) :
    Except PackError (Option (List Value)) :=
  if d.type ≠ destinationLabel ∨ d.variant ≠ allLabels then .ok none
  else match shipment with
    | none => .ok none
    | some reference =>
      let codes := provider.cartonCodes reference
      if codes.isEmpty then .ok none
      else do
        let cartons ← codes.mapM fun code =>
          match provider.carton code with
          | some carton => Except.ok carton
          | none => Except.error (PackError.unknownCarton code)
        return some cartons

/-- The jobs of one document. -/
def jobsOf (provider : Provider) (p : Plan) (shipment : Option String) (d : Document) :
    Except PackError (List Job) := do
  match ← targets provider d shipment with
  | none => return [⟨d, p.carton, ""⟩]
  | some cartons =>
    return cartons.zipIdx.map fun c =>
      ⟨d, some c.1, if cartons.length > 1 then "-" ++ toString (c.2 + 1) else ""⟩

/-- The jobs of a plan, document by document. -/
def jobs (provider : Provider) (p : Plan) (shipment : Option String) :
    Except PackError (List Job) := do
  return (← p.documents.mapM (jobsOf provider p shipment)).flatten

end Waybill.Generation
