/-
  The artifacts of a store and their items.

  * `insertArtifact` adds an artifact that is being generated, `insertItem` one of its documents;
  * `finalize` gives it its file, `markFailed` the error that ended it, `recordOutcome` what became
    of an attempt to deliver it;
  * `selectArtifacts` picks artifacts by their status, oldest first.
-/
import Waybill.Store.Basic

namespace Waybill.Store

/-! ## Artifacts -/

/-- An artifact as it is read. -/
def readArtifact (row : ArtifactRow) : Except StoreError Artifact :=
  match row.unknown with
  | some word => .error (.unknownWord 4 word)
  | none => .ok row.artifact

/-- The artifact of a number. -/
def artifact? (s : Store) (id : Id) : Except StoreError (Option Artifact) :=
  (s.artifacts.rows.find? fun row => row.artifact.id == id).mapM readArtifact

/-- The artifact of a number, which has to be there. -/
def artifact (s : Store) (id : Id) : Except StoreError Artifact := do
  match ← s.artifact? id with
  | some found => return found
  | none => throw (.notFound "artifact" id)

/-- What is known of an artifact before it is generated. -/
structure NewArtifact where
  packCode : String
  shipment : Option String
  carton : Option String
  createdBy : Option String
  createdAt : Calendar.Instant
  deriving DecidableEq, Inhabited

/-- Adds an artifact. -/
def insertArtifact (a : NewArtifact) : Action StoreError Artifact := do
  let s ← get
  let id := s.artifacts.next
  let s := { s with
    artifacts := s.artifacts.push fun id =>
      ⟨{ id, packCode := a.packCode, shipment := a.shipment, carton := a.carton,
         status := .generated, pdfName := none, pdf := none, checksum := "",
         createdBy := a.createdBy, createdAt := a.createdAt, remotePath := "", attempts := 0,
         lastError := "" }, none⟩ }
  set s
  liftM (s.artifact id)

/-- Changes the artifact of a number, its status included, if there is one. -/
def changeArtifact (id : Id) (f : Artifact → Artifact) (s : Store) : Store :=
  { s with artifacts := s.artifacts.change (fun row => row.artifact.id == id) fun row =>
      ⟨f row.artifact, none⟩ }

/-- Gives an artifact its file and queues it. -/
def finalize (id : Id) (pdfName : String) (pdf : ByteArray) (checksum : String) :
    Action StoreError Artifact := do
  modify (changeArtifact id fun a =>
    { a with pdfName := some pdfName, pdf := some pdf, checksum, status := .syncPending })
  liftM ((← get).artifact id)

/-- Notes the error that ended the generation of an artifact. -/
def markFailed (id : Id) (error : String) : Action StoreError Unit :=
  modify (changeArtifact id fun a => { a with status := .generationFailed, lastError := error })

/-- Notes what became of an attempt to deliver an artifact. -/
def recordOutcome (a : Artifact) : Action StoreError Unit :=
  modify (changeArtifact a.id fun kept =>
    { kept with
      status := a.status, attempts := a.attempts, remotePath := a.remotePath,
      lastError := a.lastError })

/-- The greatest limit that counts as one; a greater one selects everything. -/
def maxLimit : Nat := 2 ^ 63 - 1

/-- The first rows up to a limit. -/
def limited {α : Type} (limit : Nat) (rows : List α) : List α :=
  if limit ≤ maxLimit then rows.take limit else rows

/-- The artifacts in one of the statuses, oldest first, at most as many as the limit. -/
def selectArtifacts (s : Store) (statuses : List ArtifactStatus) (limit : Nat) :
    Except StoreError (List Artifact) :=
  let chosen := s.artifacts.rows.filter fun row =>
    row.unknown.isNone && statuses.contains row.artifact.status
  (limited limit (chosen.mergeSort fun a b =>
    a.artifact.createdAt.stored ≤ b.artifact.createdAt.stored)).mapM readArtifact

/-- How many artifacts there are. -/
def countArtifacts (s : Store) : Nat :=
  s.artifacts.rows.length

/-! ## Items -/

/-- Adds a document to an artifact. -/
def insertItem (item : ArtifactItem) : Action StoreError Id := do
  let s ← get
  if !s.artifacts.rows.any fun row => row.artifact.id == item.artifact then throw .noSuchRow
  set { s with items := s.items.push fun id => { item with id } }
  return s.items.next

/-- The documents of an artifact, in the order they were added. -/
def itemsOf (s : Store) (artifact : Id) : List ArtifactItem :=
  s.items.rows.filter fun item => item.artifact == artifact

end Waybill.Store
