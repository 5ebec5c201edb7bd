/-
  Payloads from JSON.

  A text in the shape of a calendar date, or of a date with a time of day, becomes one; every
  other value keeps its kind.  A whole number beyond the machine's integers becomes a floating
  one.

  * `Scalar.ofText` decides what a text stands for;
  * `Value.ofJson` converts a whole tree.
-/
import Waybill.Calendar.Reading
import Waybill.Payload.Basic

namespace Waybill.Payload

open Waybill.Calendar

/-- A text as a date when it is ten bytes long and reads as one, as a moment when the letter `T`
    stands after ten bytes and it reads as one, else as it is. -/
def Scalar.ofText (s : String) : Scalar :=
  match (if s.utf8ByteSize = 10 then date? s else none) with
  | some d => .date d
  | none =>
    let splits := 19 ≤ s.utf8ByteSize ∧ s.toUTF8[10]? = some 'T'.toUInt8
    match (if splits then moment? s else none) with
    | some m => .moment m
    | none => .text s

mutual

/-- The payload a JSON value stands for. -/
def Value.ofJson : Json → Value
  | .null | .unreadable => .null
  | .bool b => .scalar (.bool b)
  | .int n => .scalar (if n < 2 ^ 63 then .int n else .float (Float.ofInt n))
  | .float x => .scalar (.float x)
  | .text s => .scalar (.ofText s)
  | .list items => .list (ofItems items)
  | .record members => .record (Json.byName (ofMembers members))

/-- The payloads of items. -/
def ofItems : List Json → List Value
  | [] => []
  | item :: items => Value.ofJson item :: ofItems items

/-- The payloads of members. -/
def ofMembers : List (String × Json) → List (String × Value)
  | [] => []
  | (name, value) :: members => (name, Value.ofJson value) :: ofMembers members

end

end Waybill.Payload
