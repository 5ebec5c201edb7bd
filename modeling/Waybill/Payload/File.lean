/-
  Payload files: the shipments and cartons that documents are about.

  A file has a table of shipments and a table of cartons.  A shipment may list its cartons, each
  by its code or as a record with a code; a carton that the table does not have is taken from the
  first such record.

  * `Provider` is what the generator of documents asks for;
  * `File.ofText?` reads a file, `File.provider` answers from it.
-/
import Waybill.Json.Parser
import Waybill.Json.Reading
import Waybill.Payload.OfJson

namespace Waybill.Payload

/-- Where shipments and cartons come from. -/
structure Provider where
  /-- The shipment with a reference. -/
  shipment : String → Option Value
  /-- The carton with a code. -/
  carton : String → Option Value
  /-- The codes of a shipment's cartons, in the order of their labels. -/
  cartonCodes : String → List String

/-- The tables of a payload file, in the order of their keys. -/
structure File where
  shipments : List (String × Json)
  cartons : List (String × Json)

namespace File

/-- The file given by a value. -/
def ofJson? (json : Json) : Option File := do
  let parts ← Json.parts? ["shipments", "cartons"] json
  let shipments ← parts.withDefault 0 [] (Json.asMap Json.asAny)
  let cartons ← parts.withDefault 1 [] (Json.asMap Json.asAny)
  return ⟨shipments, cartons⟩

/-- The file given by a text. -/
def ofText? (s : String) : Option File := do
  ofJson? (← Json.parse? s)

/-- The code of a listed carton. -/
def code? : Json → Option String
  | .text code => some code
  | .record members => (Json.member? "code" (.record members)).bind Json.asText
  | _ => none

/-- The cartons that a shipment lists. -/
def listed (shipment : Json) : List Json :=
  match shipment.member? "cartons" with
  | some (.list items) => items
  | _ => []

/-- The entry of a table. -/
def lookup? (table : List (String × Json)) (key : String) : Option Json :=
  (table.find? fun e => e.1 == key).map (·.2)

/-- Whether a listed carton is a record with this code. -/
def isInline (code : String) : Json → Bool
  | .record members => code? (.record members) == some code
  | _ => false

/-- The carton with a code: from the table, else the first record that a shipment lists. -/
def carton? (f : File) (code : String) : Option Json :=
  (lookup? f.cartons code).or
    ((f.shipments.flatMap fun s => listed s.2).find? (isInline code))

/-- The codes of the cartons that a shipment lists. -/
def codes (f : File) (reference : String) : List String :=
  ((lookup? f.shipments reference).map listed |>.getD []).filterMap code?

/-- Answers from the file. -/
def provider (f : File) : Provider where
  shipment reference := (lookup? f.shipments reference).map Value.ofJson
  carton code := (f.carton? code).map Value.ofJson
  cartonCodes := f.codes

end File

end Waybill.Payload
