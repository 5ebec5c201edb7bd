/-
  Rules: which payload value goes into which cell.

  * `Rule` is one rule, as it is written in a catalog and kept in a history;
  * `Rule.normalized` trims a rule and gives it its place when it has none;
  * `Transform` is how a value is changed on its way, `Transform.apply` the content it becomes;
  * `Rule.toJson` and `Rule.ofJson?` write and read a rule.
-/
import Waybill.Json.Reading
import Waybill.Payload.Basic
import Waybill.Sheet.Workbook
import Waybill.Text.Upper

namespace Waybill.Mapping

open Waybill.Payload Waybill.Sheet

/-! ## Rules -/

/-- A rule: the cell, the payload key, a transform by name, whether a value has to be there, and
    the place in the order of rules. -/
structure Rule where
  worksheet : String
  cell : String
  source : String
  transform : String
  required : Bool
  sequence : Nat
  deriving DecidableEq, Inhabited

namespace Rule

/-- The rule with its texts trimmed; without a place of its own it takes the given one. -/
def normalized (r : Rule) (place : Nat) : Rule where
  worksheet := Text.trim r.worksheet
  cell := Text.trim r.cell
  source := Text.trim r.source
  transform := Text.trim r.transform
  required := r.required
  sequence := if r.sequence = 0 then place else r.sequence

/-- The rules normalized, their places counted from a number on. -/
def normalizedFrom (place : Nat) : List Rule → List Rule
  | [] => []
  | r :: rs => r.normalized place :: normalizedFrom (place + 1) rs

/-- The rules normalized, their places counted from one on. -/
def normalizedAll (rules : List Rule) : List Rule :=
  normalizedFrom 1 rules

/-- The rule as a value. -/
def toJson (r : Rule) : Json :=
  .record [
    ("worksheet_name", .text r.worksheet),
    ("cell_ref", .text r.cell),
    ("source_key", .text r.source),
    ("transform", .text r.transform),
    ("required", .bool r.required),
    ("sequence", .int r.sequence)]

/-- The rule of a value; the last three fields may be left out. -/
def ofJson? (json : Json) : Option Rule := do
  let parts ← Json.parts?
    ["worksheet_name", "cell_ref", "source_key", "transform", "required", "sequence"] json
  return {
    worksheet := ← parts.required 0 Json.asText
    cell := ← parts.required 1 Json.asText
    source := ← parts.required 2 Json.asText
    transform := ← parts.withDefault 3 "" Json.asText
    required := ← parts.withDefault 4 false Json.asBool
    sequence := ← parts.withDefault 5 0 (Json.asNatBelow (2 ^ 32)) }

end Rule

/-! ## Transforms -/

/-- How a value is changed on its way into a cell. -/
inductive Transform where
  | identity
  | upper
  | dateFr
  deriving DecidableEq, Inhabited

namespace Transform

/-- The transform of a name, in any case and with any blanks around it; an unknown name
    changes nothing. -/
def ofName (name : String) : Transform :=
  match String.ofList ((Text.trimmed name.toList).map Char.toLower) with
  | "upper" => .upper
  | "date_fr" => .dateFr
  | _ => .identity

/-- The content that a value becomes. -/
def apply (t : Transform) (s : Scalar) : CellValue :=
  match t, s with
  | _, .null => .text ""
  | .upper, s => .text (Text.upper s.shown)
  | .dateFr, .date d => .text d.french
  | .dateFr, .moment m => .text m.date.french
  | _, .bool b => .bool b
  | _, .int n => .number (Float.ofInt n)
  | _, .float x => .number x
  | _, s => .text s.shown

end Transform

end Waybill.Mapping
