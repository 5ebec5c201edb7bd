/-
  Payloads: the business data that templates are filled from.

  A payload is a tree of records, lists and scalars.

  * `Scalar.shown` is a scalar as it is shown;
  * `Value.field?` looks a field up in a record, `Value.insert` sets one;
  * `isMissing` tells whether a place of a payload counts as empty: absent, null or blank text.
-/
import Waybill.Calendar.Date
import Waybill.Decimal.Shortest
import Waybill.Json.Basic
import Waybill.Text.Blank

namespace Waybill.Payload

open Waybill.Calendar

/-! ## Trees -/

/-- A value without parts. -/
inductive Scalar where
  | null
  | bool (b : Bool)
  | int (n : Int)
  | float (x : Float)
  | text (s : String)
  | date (d : Date)
  | moment (m : Moment)
  deriving Inhabited

/-- A node of a payload; the fields of a record stand in the order of their names. -/
inductive Value where
  | scalar (s : Scalar)
  | list (items : List Value)
  | record (fields : List (String × Value))
  deriving Inhabited

/-- A scalar as it is shown: nothing for null, a date or moment in its calendar form. -/
def Scalar.shown : Scalar → String
  | .null => ""
  | .bool b => if b then "true" else "false"
  | .int n => toString n
  | .float x => Decimal.ofFloat x
  | .text s => s
  | .date d => d.iso
  | .moment m => m.iso

namespace Value

/-- The absent value. -/
def null : Value := .scalar .null

/-- A text value. -/
def ofText (s : String) : Value := .scalar (.text s)

/-- A record without fields. -/
def empty : Value := .record []

/-- The record with the given fields, the last of equal names. -/
def ofFields (fields : List (String × Value)) : Value :=
  .record (Json.byName fields)

/-! ## Fields -/

/-- The field of a record; other nodes have none. -/
def field? (v : Value) (name : String) : Option Value :=
  match v with
  | .record fields => (fields.find? fun f => f.1 == name).map (·.2)
  | _ => none

/-- The record with one field set; other nodes are left as they are. -/
def insert (v : Value) (name : String) (value : Value) : Value :=
  match v with
  | .record fields => .record (Json.insertByName name value fields)
  | _ => v

end Value

/-! ## Missing values -/

/-- Whether a place counts as empty: nothing there, null, or blank text. -/
def isMissing : Option Value → Bool
  | none => true
  | some (.scalar .null) => true
  | some (.scalar (.text s)) => Text.isBlankText s
  | some _ => false

end Waybill.Payload
