/-
  The packs and documents of a store.

  A pack is found by its code, a document by its pack, type and variant.

  * `upsertPack` and `upsertDocument` add one, or change the one that is there; a change uses up
    a number as an addition does;
  * `packByCode?` and `activePack?` look a pack up, `document?` a document;
  * `packDocuments` and `enabledDocuments` list the documents of a pack in their sequence.
-/
import Waybill.Store.Basic

namespace Waybill.Store

/-! ## Packs -/

/-- A pack as it is read. -/
def readPack (row : PackRow) : Except StoreError Pack := do
  let defaultFormat ← row.defaultFormat.read 4
  let fallbackFormat ← row.fallbackFormat.mapM fun f => f.read 5
  return ⟨row.id, row.code, row.name, row.active, defaultFormat, fallbackFormat⟩

/-- What is to be kept of a pack. -/
structure NewPack where
  code : String
  name : String
  active : Bool
  defaultFormat : PageFormat
  fallbackFormat : Option PageFormat
  deriving DecidableEq, Inhabited

/-- The row of a new pack. -/
def NewPack.row (p : NewPack) (id : Id) : PackRow :=
  ⟨id, p.code, p.name, p.active, .known p.defaultFormat, p.fallbackFormat.map .known⟩

/-- The pack of a code. -/
def packByCode? (s : Store) (code : String) : Except StoreError (Option Pack) :=
  (s.packs.rows.find? fun row => row.code == code).mapM readPack

/-- The pack of a code, if it is active. -/
def activePack? (s : Store) (code : String) : Except StoreError (Option Pack) :=
  (s.packs.rows.find? fun row => row.code == code && row.active).mapM readPack

/-- Adds a pack, or changes the one with its code. -/
def upsertPack (p : NewPack) : Action StoreError Pack := do
  let s ← get
  let packs :=
    if s.packs.rows.any fun row => row.code == p.code then
      (s.packs.change (fun row => row.code == p.code) fun row => p.row row.id).skip
    else s.packs.push p.row
  set { s with packs }
  match ← liftM (packByCode? { s with packs } p.code) with
  | some pack => return pack
  | none => throw (.notFound "pack" packs.last)

/-! ## Documents -/

/-- A document as it is read, if its pack is there. -/
def readDocument? (s : Store) (row : DocumentRow) : Option Document :=
  (s.packs.rows.find? fun p => p.id == row.pack).map fun p =>
    ⟨row.id, row.pack, p.code, row.type, row.variant, row.sequence, row.enabled,
      TemplateFile.present? row.template⟩

/-- The document of a number. -/
def document? (s : Store) (id : Id) : Option Document :=
  (s.documents.rows.find? fun row => row.id == id).bind s.readDocument?

/-- The documents of a pack, enabled or not. -/
def packDocuments (s : Store) (pack : Id) : List Document :=
  (inSequence (·.sequence) (s.documents.rows.filter fun row => row.pack == pack)).filterMap
    s.readDocument?

/-- The enabled documents of a pack, of one variant or of any. -/
def enabledDocuments (s : Store) (pack : Id) (variant : Option String) : List Document :=
  (s.packDocuments pack).filter fun d =>
    d.enabled && (variant.isNone || variant == some d.variant)

/-- What is to be kept of a document. -/
structure NewDocument where
  pack : Id
  type : String
  variant : String
  sequence : Nat
  enabled : Bool
  deriving DecidableEq, Inhabited

/-- Whether the row is about the same document. -/
def NewDocument.matches (d : NewDocument) (row : DocumentRow) : Bool :=
  row.pack == d.pack && row.type == d.type && row.variant == d.variant

/-- Adds a document, or changes the one of its pack, type and variant; its template stays. -/
def upsertDocument (d : NewDocument) : Action StoreError Document := do
  let s ← get
  match s.documents.rows.find? d.matches with
  | some row =>
    let documents := (s.documents.change d.matches fun row =>
      { row with sequence := d.sequence, enabled := d.enabled }).skip
    let s := { s with documents }
    set s
    match s.document? row.id with
    | some found => return found
    | none => throw (.notFound "document" row.id)
  | none =>
    if !s.packs.rows.any fun p => p.id == d.pack then throw .noSuchRow
    let id := s.documents.next
    let s := { s with
      documents := s.documents.push fun id =>
        ⟨id, d.pack, d.type, d.variant, d.sequence, d.enabled, none⟩ }
    set s
    match s.document? id with
    | some found => return found
    | none => throw (.notFound "document" id)

/-- Changes one document, which has to be there. -/
def changeDocument (id : Id) (f : DocumentRow → DocumentRow) : Action StoreError Unit := do
  let s ← get
  if !s.documents.rows.any fun row => row.id == id then throw (.notFound "document" id)
  set { s with documents := s.documents.change (fun row => row.id == id) f }

/-- Enables or disables a document. -/
def setEnabled (id : Id) (enabled : Bool) : Action StoreError Unit :=
  changeDocument id fun row => { row with enabled }

/-- Sets or clears the template of a document. -/
def setTemplate (id : Id) (template : Option TemplateFile) : Action StoreError Unit :=
  changeDocument id fun row => { row with template }

end Waybill.Store
