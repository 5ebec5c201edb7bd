/-
  Artifacts: the packs that were generated.

  * `ArtifactStatus` is how far an artifact has come;
  * `Artifact` is a generated pack, `ArtifactItem` one document of it; `toJson` describes them without
    the content of their files.
-/
import Waybill.Calendar.Instant
import Waybill.Json.Basic
import Waybill.Pack.Basic

namespace Waybill

/-- How far an artifact has come. -/
inductive ArtifactStatus where
  | generated
  | syncPending
  | synced
  | syncFailed
  /-- Rendering stopped partway; the items made so far are kept. -/
  | generationFailed
  deriving DecidableEq, Inhabited

namespace ArtifactStatus

/-- The name of a status. -/
def name : ArtifactStatus → String
  | .generated => "generated"
  | .syncPending => "sync_pending"
  | .synced => "synced"
  | .syncFailed => "sync_failed"
  | .generationFailed => "generation_failed"

/-- The status of a name. -/
def ofName (s : String) : Except UnknownWord ArtifactStatus :=
  match [generated, syncPending, synced, syncFailed, generationFailed].find? (·.name == s) with
  | some status => .ok status
  | none => .error ⟨"artifact status", s⟩

end ArtifactStatus

/-- A generated pack. -/
structure Artifact where
  id : Id
  packCode : String
  shipment : Option String
  carton : Option String
  status : ArtifactStatus
  pdfName : Option String
  pdf : Option ByteArray
  checksum : String
  createdBy : Option String
  createdAt : Calendar.Instant
  remotePath : String
  /-- How often delivery was tried: a word of 32 bits, which starts again after the greatest. -/
  attempts : UInt32
  lastError : String
  deriving DecidableEq, Inhabited

/-- A document of a generated pack. -/
structure ArtifactItem where
  id : Id
  artifact : Id
  type : String
  variant : String
  sequence : Nat
  xlsxName : String
  xlsx : ByteArray
  pdfName : String
  pdf : ByteArray
  deriving DecidableEq, Inhabited

/-- What there is to know of an artifact, but for its file. -/
def Artifact.toJson (a : Artifact) : Json :=
  .record [
    ("id", .int a.id),
    ("pack_code", .text a.packCode),
    ("shipment_reference", .ofOption .text a.shipment),
    ("carton_code", .ofOption .text a.carton),
    ("status", .text a.status.name),
    ("pdf_filename", .ofOption .text a.pdfName),
    ("checksum", .text a.checksum),
    ("created_by", .ofOption .text a.createdBy),
    ("created_at", .text a.createdAt.zulu),
    ("remote_path", .text a.remotePath),
    ("sync_attempts", .int a.attempts.toNat),
    ("last_error", .text a.lastError)]

/-- What there is to know of a document of an artifact, but for its files. -/
def ArtifactItem.toJson (i : ArtifactItem) : Json :=
  .record [
    ("id", .int i.id),
    ("artifact_id", .int i.artifact),
    ("doc_type", .text i.type),
    ("variant", .text i.variant),
    ("sequence", .int i.sequence),
    ("xlsx_filename", .text i.xlsxName),
    ("pdf_filename", .text i.pdfName)]

end Waybill
