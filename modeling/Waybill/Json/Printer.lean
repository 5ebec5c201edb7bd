/-
  Writing JSON text.

  * `Json.escaped` is one character of a string, `Json.quoted` a string;
  * `Json.render` is a value without blanks; what is unreadable is written as nothing;
  * `Json.pretty` is a value with each item and member on a line of its own.
-/
import Waybill.Json.Number

namespace Waybill.Json

/-! ## Strings -/

/-- Four hexadecimal digits in lower case. -/
def code4 (n : Nat) : List Char :=
  let ds := Nat.toDigits 16 n
  List.replicate (4 - ds.length) '0' ++ ds

/-- One character of a string. -/
def escaped (c : Char) : List Char :=
  if c = '"' ∨ c = '\\' then ['\\', c]
  else if c = '\x08' then ['\\', 'b']
  else if c = '\x0c' then ['\\', 'f']
  else if c = '\n' then ['\\', 'n']
  else if c = '\r' then ['\\', 'r']
  else if c = '\t' then ['\\', 't']
  else if c.toNat < 0x20 then '\\' :: 'u' :: code4 c.toNat
  else [c]

/-- A string between its quotes. -/
def quoted (s : String) : String :=
  String.ofList ('"' :: s.toList.flatMap escaped ++ ['"'])

/-! ## Values -/

mutual

/-- The text of a value. -/
def render : Json → String
  | .null => "null"
  | .bool b => if b then "true" else "false"
  | .int n => toString n
  | .float x => floatText x
  | .text s => quoted s
  | .list items => "[" ++ ",".intercalate (renderItems items) ++ "]"
  | .record members => "\x7b" ++ ",".intercalate (renderMembers members) ++ "\x7d"
  | .unreadable => "null"

/-- The texts of items. -/
def renderItems : List Json → List String
  | [] => []
  | item :: items => render item :: renderItems items

/-- The texts of members. -/
def renderMembers : List (String × Json) → List String
  | [] => []
  | (name, value) :: members => (quoted name ++ ":" ++ render value) :: renderMembers members

end

/-! ## Values on several lines -/

/-- Texts between brackets, each on a line of its own at a depth. -/
def onLines (depth : Nat) (opening closing : String) (texts : List String) : String :=
  let blanks (n : Nat) : String := "\n" ++ "".pushn ' ' (2 * n)
  if texts.isEmpty then opening ++ closing
  else opening ++ ",".intercalate (texts.map fun t => blanks (depth + 1) ++ t) ++
    blanks depth ++ closing

mutual

/-- The text of a value at a depth, each item and member two blanks further in. -/
def pretty (depth : Nat) : Json → String
  | .list items => onLines depth "[" "]" (prettyItems (depth + 1) items)
  | .record members => onLines depth "\x7b" "\x7d" (prettyMembers (depth + 1) members)
  | value => render value

/-- The texts of items at a depth. -/
def prettyItems (depth : Nat) : List Json → List String
  | [] => []
  | item :: items => pretty depth item :: prettyItems depth items

/-- The texts of members at a depth. -/
def prettyMembers (depth : Nat) : List (String × Json) → List String
  | [] => []
  | (name, value) :: members =>
    (quoted name ++ ": " ++ pretty depth value) :: prettyMembers depth members

end

/-- The bytes of a value. -/
def toBytes (value : Json) : ByteArray :=
  (render value).toUTF8

end Waybill.Json
