/-
  The store as a file.

  * `Store.toBytes` writes the tables, `Store.ofBytes?` reads them back; an empty file is an empty
    store.

  Bytes are written as texts with one character a byte, and instants by their numbers.
-/
import Waybill.Json.Parser
import Waybill.Json.Printer
import Waybill.Json.Reading
import Waybill.Store.Basic
import Waybill.Text.Octets

namespace Waybill.Store.Saved

open Waybill.Json Waybill.Mapping

/-! ## Parts of rows -/

/-- Bytes as a value. -/
def ofBytes (b : ByteArray) : Json :=
  .text (String.ofList (Text.Octets.ofBytes b.toList))

/-- The bytes of a value. -/
def asBytes (j : Json) : Option ByteArray :=
  (asText j).map fun s => ⟨(Text.Octets.toBytes s.toList).toArray⟩

/-- The integer of a value. -/
def asInt : Json → Option Int
  | .int n => some n
  | _ => none

/-- The natural number of a value. -/
def asNat : Json → Option Nat := asNatBelow (2 ^ 64)

/-- An instant by its numbers. -/
def ofInstant (i : Calendar.Instant) : Json :=
  let d := i.moment.date
  let t := i.moment.time
  .list [.int d.year, .int d.month, .int d.day, .int t.hour, .int t.minute, .int t.second,
    .int t.nano]

/-- The instant of numbers. -/
def asInstant (j : Json) : Option Calendar.Instant := do
  match ← asList asInt j with
  | [year, month, day, hour, minute, second, nano] =>
    return ⟨⟨← Calendar.Date.of? year month.toNat day.toNat,
      ← Calendar.Time.of? hour.toNat minute.toNat second.toNat nano.toNat⟩⟩
  | _ => none

/-- A template file as a value. -/
def ofTemplate (t : TemplateFile) : Json :=
  .record [("name", .text t.name), ("bytes", ofBytes t.bytes)]

/-- The template file of a value. -/
def asTemplate (j : Json) : Option TemplateFile := do
  let parts ← parts? ["name", "bytes"] j
  return ⟨← parts.required 0 asText, ← parts.required 1 asBytes⟩

/-- A field of a vocabulary by its text. -/
def ofField {α : Type} (name : α → String) : Field α → Json
  | .known value => .text (name value)
  | .unknown word => .text word.text

/-- The field of a text. -/
def asField {α : Type} (ofName : String → Except UnknownWord α) (j : Json) : Option (Field α) :=
  (asText j).map fun s => .ofRead (ofName s)

/-! ## Rows -/

/-- A pack as a value. -/
def ofPack (r : PackRow) : Json :=
  .record [("id", .int r.id), ("code", .text r.code), ("name", .text r.name),
    ("active", .bool r.active), ("default", ofField PageFormat.name r.defaultFormat),
    ("fallback", .ofOption (ofField PageFormat.name) r.fallbackFormat)]

/-- The pack of a value. -/
def asPack (j : Json) : Option PackRow := do
  let parts ← parts? ["id", "code", "name", "active", "default", "fallback"] j
  return {
    id := ← parts.required 0 asInt
    code := ← parts.required 1 asText
    name := ← parts.required 2 asText
    active := ← parts.required 3 asBool
    defaultFormat := ← parts.required 4 (asField PageFormat.ofName)
    fallbackFormat := ← parts.optional 5 (asField PageFormat.ofName) }

/-- A document as a value. -/
def ofDocument (r : DocumentRow) : Json :=
  .record [("id", .int r.id), ("pack", .int r.pack), ("type", .text r.type),
    ("variant", .text r.variant), ("sequence", .int r.sequence), ("enabled", .bool r.enabled),
    ("template", .ofOption ofTemplate r.template)]

/-- The document of a value. -/
def asDocument (j : Json) : Option DocumentRow := do
  let parts ← parts? ["id", "pack", "type", "variant", "sequence", "enabled", "template"] j
  return {
    id := ← parts.required 0 asInt
    pack := ← parts.required 1 asInt
    type := ← parts.required 2 asText
    variant := ← parts.required 3 asText
    sequence := ← parts.required 4 asNat
    enabled := ← parts.required 5 asBool
    template := ← parts.optional 6 asTemplate }

/-- A live rule as a value. -/
def ofRule (r : RuleRow) : Json :=
  .record [("id", .int r.id), ("document", .int r.document), ("rule", r.rule.toJson)]

/-- The live rule of a value. -/
def asRule (j : Json) : Option RuleRow := do
  let parts ← parts? ["id", "document", "rule"] j
  return ⟨← parts.required 0 asInt, ← parts.required 1 asInt, ← parts.required 2 Rule.ofJson?⟩

/-- The rules of a version as a value. -/
def ofSnapshot : Snapshot → Json
  | .rules rules => .list (rules.map Rule.toJson)
  | .unreadable => .null

/-- The rules of a version that a value gives. -/
def asSnapshot : Json → Option Snapshot
  | .null => some .unreadable
  | j => (asList Rule.ofJson? j).map .rules

/-- A version as a value. -/
def ofVersion (r : VersionRow) : Json :=
  .record [("id", .int r.id), ("document", .int r.document), ("number", .int r.number),
    ("template", .ofOption ofTemplate r.template), ("rules", ofSnapshot r.snapshot),
    ("change", ofField ChangeType.name r.change), ("note", .text r.note),
    ("createdBy", .ofOption .text r.createdBy), ("createdAt", ofInstant r.createdAt)]

/-- The version of a value. -/
def asVersion (j : Json) : Option VersionRow := do
  let parts ← parts? ["id", "document", "number", "template", "rules", "change", "note",
    "createdBy", "createdAt"] j
  return {
    id := ← parts.required 0 asInt
    document := ← parts.required 1 asInt
    number := ← parts.required 2 asNat
    template := ← parts.optional 3 asTemplate
    snapshot := ← parts.required 4 asSnapshot
    change := ← parts.required 5 (asField ChangeType.ofName)
    note := ← parts.required 6 asText
    createdBy := ← parts.optional 7 asText
    createdAt := ← parts.required 8 asInstant }

/-- An artifact as a value. -/
def ofArtifact (r : ArtifactRow) : Json :=
  let a := r.artifact
  .record [("id", .int a.id), ("packCode", .text a.packCode),
    ("shipment", .ofOption .text a.shipment), ("carton", .ofOption .text a.carton),
    ("status", .text ((r.unknown.map (·.text)).getD a.status.name)),
    ("pdfName", .ofOption .text a.pdfName), ("pdf", .ofOption ofBytes a.pdf),
    ("checksum", .text a.checksum), ("createdBy", .ofOption .text a.createdBy),
    ("createdAt", ofInstant a.createdAt), ("remotePath", .text a.remotePath),
    ("attempts", .int a.attempts.toNat), ("lastError", .text a.lastError)]

/-- The artifact of a value. -/
def asArtifact (j : Json) : Option ArtifactRow := do
  let parts ← parts? ["id", "packCode", "shipment", "carton", "status", "pdfName", "pdf",
    "checksum", "createdBy", "createdAt", "remotePath", "attempts", "lastError"] j
  let status := ArtifactStatus.ofName (← parts.required 4 asText)
  let artifact : Artifact := {
    id := ← parts.required 0 asInt
    packCode := ← parts.required 1 asText
    shipment := ← parts.optional 2 asText
    carton := ← parts.optional 3 asText
    status := status.toOption.getD .generated
    pdfName := ← parts.optional 5 asText
    pdf := ← parts.optional 6 asBytes
    checksum := ← parts.required 7 asText
    createdBy := ← parts.optional 8 asText
    createdAt := ← parts.required 9 asInstant
    remotePath := ← parts.required 10 asText
    attempts := .ofNat (← parts.required 11 (asNatBelow (2 ^ 32)))
    lastError := ← parts.required 12 asText }
  return ⟨artifact, match status with | .ok _ => none | .error word => some word⟩

/-- A document of an artifact as a value. -/
def ofItem (i : ArtifactItem) : Json :=
  .record [("id", .int i.id), ("artifact", .int i.artifact), ("type", .text i.type),
    ("variant", .text i.variant), ("sequence", .int i.sequence), ("xlsxName", .text i.xlsxName),
    ("xlsx", ofBytes i.xlsx), ("pdfName", .text i.pdfName), ("pdf", ofBytes i.pdf)]

/-- The document of an artifact that a value gives. -/
def asItem (j : Json) : Option ArtifactItem := do
  let parts ← parts? ["id", "artifact", "type", "variant", "sequence", "xlsxName", "xlsx",
    "pdfName", "pdf"] j
  return {
    id := ← parts.required 0 asInt
    artifact := ← parts.required 1 asInt
    type := ← parts.required 2 asText
    variant := ← parts.required 3 asText
    sequence := ← parts.required 4 asNat
    xlsxName := ← parts.required 5 asText
    xlsx := ← parts.required 6 asBytes
    pdfName := ← parts.required 7 asText
    pdf := ← parts.required 8 asBytes }

/-! ## Tables -/

/-- A table as a value. -/
def ofTable {α : Type} (row : α → Json) (t : Table α) : Json :=
  .record [("last", .int t.last), ("rows", .list (t.rows.map row))]

/-- The table of a value. -/
def asTable {α : Type} (row : Json → Option α) (j : Json) : Option (Table α) := do
  let parts ← parts? ["last", "rows"] j
  return ⟨← parts.required 1 (asList row), ← parts.required 0 asInt⟩

end Saved

open Saved

/-- The store as a value. -/
def toJson (s : Store) : Json :=
  .record [("packs", ofTable ofPack s.packs), ("documents", ofTable ofDocument s.documents),
    ("rules", ofTable ofRule s.rules), ("versions", ofTable ofVersion s.versions),
    ("artifacts", ofTable ofArtifact s.artifacts), ("items", ofTable ofItem s.items)]

/-- The store of a value. -/
def ofJson? (j : Json) : Option Store := do
  let parts ← Json.parts? ["packs", "documents", "rules", "versions", "artifacts", "items"] j
  return {
    packs := ← parts.required 0 (asTable asPack)
    documents := ← parts.required 1 (asTable asDocument)
    rules := ← parts.required 2 (asTable asRule)
    versions := ← parts.required 3 (asTable asVersion)
    artifacts := ← parts.required 4 (asTable asArtifact)
    items := ← parts.required 5 (asTable asItem) }

/-- The store as a file. -/
def toBytes (s : Store) : ByteArray :=
  s.toJson.render.toUTF8

/-- The store in a file. -/
def ofBytes? (file : ByteArray) : Option Store :=
  if file.isEmpty then some .empty else (Json.ofBytes? file).bind ofJson?

end Waybill.Store
