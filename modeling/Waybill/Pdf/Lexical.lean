/-
  Values as a PDF file writes them.

  The file is read as text with one character a byte.  Blanks and comments may stand between the
  parts of a value.

  * `skipSpace` drops blanks and comments;
  * `value?` reads one value off the front of a text;
  * `written` is the text of a value.

  A string in parentheses may hold pairs of parentheses nested 100 deep.

  Statement: `length_eol?_lt` (an end of line is some text).
-/
import Waybill.Decimal.Reading
import Waybill.Decimal.Shortest
import Waybill.Json.Parser
import Waybill.Pdf.Object
import Waybill.Text.Octets

namespace Waybill.Pdf

open Waybill.Decimal

/-! ## Characters -/

/-- The blanks of a PDF file. -/
def isBlank (c : Char) : Bool :=
  c = ' ' || c = '\t' || c = '\n' || c = '\r' || c = '\x00' || c = '\x0c'

/-- The characters that begin or end a value. -/
def isDelimiter (c : Char) : Bool :=
  c = '(' || c = ')' || c = '<' || c = '>' || c = '[' || c = ']' || c = '\x7b' || c = '\x7d' ||
    c = '/' || c = '%'

/-- The characters of names. -/
def isRegular (c : Char) : Bool :=
  !isBlank c && !isDelimiter c

/-- The text after an end of line. -/
def eol? : List Char → Option (List Char)
  | '\r' :: '\n' :: cs => some cs
  | '\n' :: cs => some cs
  | '\r' :: cs => some cs
  | _ => none

theorem length_eol?_lt {cs rest : List Char} (h : eol? cs = some rest) :
    rest.length < cs.length := by
  unfold eol? at h
  split at h <;> cases h <;> simp only [List.length_cons] <;> omega

/-- Whether a character ends a line. -/
def endsLine (c : Char) : Bool :=
  c = '\r' || c = '\n'

/-- The text after its blanks and comments. -/
def skipSpace : List Char → List Char
  | [] => []
  | c :: cs =>
    if isBlank c then skipSpace cs
    else if c = '%' then
      match h : eol? (cs.dropWhile (!endsLine ·)) with
      | some rest =>
        have := length_eol?_lt h
        have := (List.dropWhile_sublist (!endsLine ·) (l := cs)).length_le
        skipSpace rest
      | none => c :: cs
    else c :: cs
termination_by cs => cs.length

/-- The text after a word at its front. -/
def tag? (word : String) (cs : List Char) : Option (List Char) :=
  if word.toList.isPrefixOf cs then some (cs.drop word.length) else none

/-! ## Numbers and references -/

/-- The number that the digits at the front spell, below a bound. -/
def digits? (bound : Nat) (cs : List Char) : Option (Nat × List Char) :=
  let ds := run cs
  if ds.1.isEmpty || bound ≤ natOf ds.1 then none else some (natOf ds.1, ds.2)

/-- The sign at the front, if there is one. -/
def sign (cs : List Char) : Bool × List Char :=
  match cs with
  | '+' :: cs => (false, cs)
  | '-' :: cs => (true, cs)
  | cs => (false, cs)

/-- The integer at the front, in 64 bits. -/
def integer? (cs : List Char) : Option (Int × List Char) :=
  let body := sign cs
  let ds := run body.2
  let n := if body.1 then -Int.ofNat (natOf ds.1) else Int.ofNat (natOf ds.1)
  if ds.1.isEmpty || n < -2 ^ 63 || 2 ^ 63 ≤ n then none else some (n, ds.2)

/-- The real number at the front: digits with a point. -/
def real? (cs : List Char) : Option (Object × List Char) :=
  let body := sign cs
  let whole := run body.2
  match whole.2 with
  | '.' :: cs =>
    let fraction := run cs
    if whole.1.isEmpty && fraction.1.isEmpty then none
    else
      let x := Float32.ofScientific (natOf (whole.1 ++ fraction.1)) true fraction.1.length
      some (.real (if body.1 then -x else x).toBits, fraction.2)
  | _ => none

/-- The number and generation at the front, and the blanks after it. -/
def objectId? (cs : List Char) : Option (Ref × List Char) := do
  let (number, cs) ← digits? (2 ^ 32) cs
  let (generation, cs) ← digits? (2 ^ 16) (skipSpace cs)
  return (⟨number, generation⟩, skipSpace cs)

/-- The reference at the front. -/
def reference? (cs : List Char) : Option (Object × List Char) := do
  let (r, cs) ← objectId? cs
  return (.ref r, ← tag? "R" cs)

/-! ## Names and strings -/

/-- The characters of a name; two hexadecimal digits after a number sign are one of them. -/
def nameBody (read : List Char) : List Char → String × List Char
  | '#' :: a :: b :: cs =>
    match Json.hexDigit? a, Json.hexDigit? b with
    | some x, some y => nameBody (Char.ofNat (16 * x + y) :: read) cs
    | _, _ => (String.ofList read.reverse, '#' :: a :: b :: cs)
  | c :: cs =>
    if isRegular c && c ≠ '#' then nameBody (c :: read) cs
    else (String.ofList read.reverse, c :: cs)
  | [] => (String.ofList read.reverse, [])

/-- Whether a character is an octal digit. -/
def isOctal (c : Char) : Bool :=
  '0' ≤ c && c ≤ '7'

/-- The character of an escape that is a letter, or the escaped character itself. -/
def unescaped : Char → Char
  | 'n' => '\n'
  | 'r' => '\r'
  | 't' => '\t'
  | 'b' => '\x08'
  | 'f' => '\x0c'
  | c => c

/-- The character that octal digits spell, in eight bits. -/
def ofOctal (ds : List Char) : Char :=
  Char.ofNat (ds.foldl (fun n d => n * 8 + (d.toNat - '0'.toNat)) 0 % 256)

/-- The characters of a string up to the parenthesis that closes it, `level` others being
    open. -/
def stringBody (level : Nat) (read : List Char) : List Char → Option (String × List Char)
  | [] => none
  | '\\' :: [] => none
  | '\\' :: '\r' :: '\n' :: cs => stringBody level read cs
  | '\\' :: c :: cs =>
    if endsLine c then stringBody level read cs
    else if isOctal c then
      let more := (cs.take 2).takeWhile isOctal
      stringBody level (ofOctal (c :: more) :: read) (cs.drop more.length)
    else stringBody level (unescaped c :: read) cs
  | '\r' :: '\n' :: cs => stringBody level ('\n' :: read) cs
  | c :: cs =>
    if c = ')' then
      match level with
      | 0 => some (String.ofList read.reverse, cs)
      | level + 1 => stringBody level (c :: read) cs
    else if c = '(' then
      if level < 100 then stringBody (level + 1) (c :: read) cs else none
    else stringBody level ((if c = '\r' then '\n' else c) :: read) cs
termination_by cs => cs.length
decreasing_by all_goals simp only [List.length_cons, List.length_drop]; omega

/-- The characters that hexadecimal digits spell two by two, a last one with a zero after it. -/
def ofHexPairs : List Nat → List Char
  | a :: b :: ds => Char.ofNat (16 * a + b) :: ofHexPairs ds
  | [a] => [Char.ofNat (16 * a)]
  | [] => []

/-- The characters of a string in hexadecimal digits up to its closing mark. -/
def hexBody? (cs : List Char) : Option (String × List Char) :=
  let inside := fun c => isBlank c || (Json.hexDigit? c).isSome
  match cs.dropWhile inside with
  | '>' :: rest =>
    some (String.ofList (ofHexPairs ((cs.takeWhile inside).filterMap Json.hexDigit?)), rest)
  | _ => none

/-! ## Values -/

mutual

/-- The value at the front of a text. -/
def valueIn : Nat → List Char → Option (Object × List Char)
  | 0, _ => none
  | fuel + 1, cs =>
    match cs with
    | 't' :: 'r' :: 'u' :: 'e' :: cs => some (.bool true, cs)
    | 'f' :: 'a' :: 'l' :: 's' :: 'e' :: cs => some (.bool false, cs)
    | 'n' :: 'u' :: 'l' :: 'l' :: cs => some (.null, cs)
    | '/' :: cs => let found := nameBody [] cs; some (.name found.1, found.2)
    | '(' :: cs => (stringBody 0 [] cs).map fun s => (.string s.1 false, s.2)
    | '<' :: '<' :: cs => entriesIn fuel [] (skipSpace cs)
    | '<' :: cs => (hexBody? cs).map fun s => (.string s.1 true, s.2)
    | '[' :: cs => itemsIn fuel [] (skipSpace cs)
    | cs => reference? cs <|> real? cs <|> (integer? cs).map fun n => (.int n.1, n.2)

/-- The items of an array up to its end; those already read in reverse. -/
def itemsIn : Nat → List Object → List Char → Option (Object × List Char)
  | 0, _, _ => none
  | fuel + 1, read, cs =>
    match valueIn fuel cs with
    | some (item, cs) => itemsIn fuel (item :: read) (skipSpace cs)
    | none =>
      match cs with
      | ']' :: cs => some (.array read.reverse, cs)
      | _ => none

/-- The entries of a dictionary up to its end. -/
def entriesIn : Nat → Dict → List Char → Option (Object × List Char)
  | 0, _, _ => none
  | fuel + 1, read, cs =>
    match cs with
    | '>' :: '>' :: cs => some (.dict read, cs)
    | '/' :: cs =>
      let key := nameBody [] cs
      match valueIn fuel (skipSpace key.2) with
      | some (value, cs) => entriesIn fuel (read.set key.1 value) (skipSpace cs)
      | none => none
    | _ => none

end

/-- The value at the front of a text. -/
def value? (cs : List Char) : Option (Object × List Char) :=
  valueIn (2 * cs.length + 2) cs

/-! ## Writing -/

/-- Two hexadecimal digits. -/
def hexPair (n : Nat) : List Char :=
  let digit := fun d => if d < 10 then Char.ofNat (48 + d) else Char.ofNat (55 + d)
  [digit (n / 16 % 16), digit (n % 16)]

/-- A name: all but printable regular characters are written by number. -/
def writtenName (text : String) : List Char :=
  '/' :: text.toList.flatMap fun c =>
    if isRegular c && c ≠ '#' && '!' ≤ c && c ≤ '~' then [c] else '#' :: hexPair c.toNat

/-- A string: its parentheses and backslashes are escaped. -/
def writtenString (text : String) : List Char :=
  '(' :: (text.toList.flatMap fun c =>
    if c = '\r' then ['\\', 'r']
    else if c = '(' || c = ')' || c = '\\' then ['\\', c] else [c]) ++ [')']

/-- Whether a value has to be set apart from what stands before it. -/
def needsBlank : Object → Bool
  | .null | .bool _ | .int _ | .real _ | .ref _ => true
  | _ => false

mutual

/-- The text of a value. -/
def written : Object → List Char
  | .null => "null".toList
  | .bool b => (if b then "true" else "false").toList
  | .int n => (toString n).toList
  | .real bits => (binary32.text bits.toNat).toList
  | .name text => writtenName text
  | .string text hexadecimal =>
    if hexadecimal then '<' :: (text.toList.flatMap fun c => hexPair c.toNat) ++ ['>']
    else writtenString text
  | .array items => '[' :: (writtenItems items).dropWhile (· = ' ') ++ [']']
  | .dict entries => '<' :: '<' :: writtenEntries entries ++ ['>', '>']
  | .stream entries content =>
    '<' :: '<' :: writtenEntries entries ++ ['>', '>'] ++ "stream\n".toList ++
      Text.Octets.ofBytes content ++ "\nendstream".toList
  | .ref r => (toString r.number ++ " " ++ toString r.generation ++ " R").toList

/-- The items of an array, one after the other. -/
def writtenItems : List Object → List Char
  | [] => []
  | o :: items => (if needsBlank o then [' '] else []) ++ written o ++ writtenItems items

/-- The entries of a dictionary, one after the other. -/
def writtenEntries : List (String × Object) → List Char
  | [] => []
  | (name, o) :: entries =>
    writtenName name ++ (if needsBlank o then [' '] else []) ++ written o ++
      writtenEntries entries

end

end Waybill.Pdf
