/-
  Quoted texts, as messages show them.

  A text stands between double quotes; the quote, the backslash and the line
  controls are written with a backslash, and a hidden character as its code in
  braces.  A path also escapes the single quote, but writes marks that attach to
  the character before them as they are.

  * `quotedChar` is one character of a quoted text, `quoted` the whole;
  * `fields` lists named values in braces after the name of what they describe.
-/
import Waybill.Text.Hidden

namespace Waybill.Text

/-! ## Characters -/

/-- The code of a character in lower-case hexadecimal, between braces. -/
def bracedCode (c : Char) : List Char :=
  ['\\', 'u', '\x7b'] ++ Nat.toDigits 16 c.toNat ++ ['\x7d']

/-- One character of a quoted text. -/
def quotedChar (c : Char) : List Char :=
  if c = '\x00' then ['\\', '0']
  else if c = '\t' then ['\\', 't']
  else if c = '\r' then ['\\', 'r']
  else if c = '\n' then ['\\', 'n']
  else if c = '\\' ∨ c = '"' then ['\\', c]
  else if isHidden c then bracedCode c
  else [c]

/-- One character of a quoted path. -/
def quotedPathChar (c : Char) : List Char :=
  if c = '\'' then ['\\', c] else quotedChar c

/-! ## Texts -/

/-- The text between double quotes. -/
def quoted (s : String) : String :=
  String.ofList ('"' :: s.toList.flatMap quotedChar ++ ['"'])

/-- The path between double quotes. -/
def quotedPath (s : String) : String :=
  String.ofList ('"' :: s.toList.flatMap quotedPathChar ++ ['"'])

/-- A list of shown values between square brackets. -/
def shownList (values : List String) : String :=
  "[" ++ ", ".intercalate values ++ "]"

/-- A value that may be absent, shown with its case. -/
def shownOption : Option String → String
  | none => "None"
  | some value => "Some(" ++ value ++ ")"

/-- Named values in braces after the name of what they describe. -/
def fields (name : String) (values : List (String × String)) : String :=
  name ++ " \x7b " ++ ", ".intercalate (values.map fun value => value.1 ++ ": " ++ value.2) ++ " \x7d"

end Waybill.Text
