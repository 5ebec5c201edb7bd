/-
  Reading JSON text.

  * `Json.parse?` reads a whole text, `Json.ofBytes?` bytes that are UTF-8;
  * containers may be nested 127 deep; a deeper one is read but denotes nothing.
-/
import Waybill.Json.Number
import Waybill.Text.Utf8

namespace Waybill.Json

/-! ## Tokens -/

/-- The text after its blanks. -/
def skipBlanks (cs : List Char) : List Char :=
  cs.dropWhile fun c => c = ' ' || c = '\t' || c = '\n' || c = '\r'

/-- The value of a hexadecimal digit. -/
def hexDigit? (c : Char) : Option Nat :=
  if c.isDigit then some (c.toNat - '0'.toNat)
  else if 'a' ≤ c ∧ c ≤ 'f' then some (c.toNat - 'a'.toNat + 10)
  else if 'A' ≤ c ∧ c ≤ 'F' then some (c.toNat - 'A'.toNat + 10)
  else none

/-- The code that four hexadecimal digits spell. -/
def hexCode? (a b c d : Char) : Option Nat := do
  return ((← hexDigit? a) * 16 + (← hexDigit? b)) * 256 + (← hexDigit? c) * 16 + (← hexDigit? d)

/-- The character of a one-letter escape. -/
def escape? : Char → Option Char
  | '"' => some '"'
  | '\\' => some '\\'
  | '/' => some '/'
  | 'b' => some '\x08'
  | 'f' => some '\x0c'
  | 'n' => some '\n'
  | 'r' => some '\r'
  | 't' => some '\t'
  | _ => none

/-- The low half of a pair of codes at the front of the text. -/
def lowHalf? : List Char → Option (Nat × List Char)
  | '\\' :: 'u' :: a :: b :: c :: d :: cs => do
    let n ← hexCode? a b c d
    if 0xDC00 ≤ n ∧ n ≤ 0xDFFF then some (n, cs) else none
  | _ => none

theorem length_lowHalf?_lt {cs rest : List Char} {n : Nat} (h : lowHalf? cs = some (n, rest)) :
    rest.length < cs.length := by
  unfold lowHalf? at h
  split at h
  · simp only [Option.bind_eq_bind, Option.bind_eq_some_iff] at h
    obtain ⟨m, -, h⟩ := h
    split at h
    · simp only [Option.some.injEq, Prod.mk.injEq] at h
      obtain ⟨-, rfl⟩ := h
      simp only [List.length_cons]; omega
    · simp at h
  · simp at h

/-- The characters of a string up to its closing quote, in reverse before those already read,
    and the text after it; `fine` turns false at half a pair of codes. -/
def stringBody (read : List Char) (fine : Bool) : List Char → Option (String × Bool × List Char)
  | [] => none
  | '"' :: cs => some (String.ofList read.reverse, fine, cs)
  | '\\' :: 'u' :: a :: b :: c :: d :: cs =>
    match hexCode? a b c d with
    | none => none
    | some n =>
      if 0xD800 ≤ n ∧ n ≤ 0xDBFF then
        match h : lowHalf? cs with
        | some (low, rest) =>
          have := length_lowHalf?_lt h
          stringBody (Char.ofNat (0x10000 + (n - 0xD800) * 0x400 + (low - 0xDC00)) :: read) fine rest
        | none => stringBody read false cs
      else if 0xDC00 ≤ n ∧ n ≤ 0xDFFF then stringBody read false cs
      else stringBody (Char.ofNat n :: read) fine cs
  | '\\' :: c :: cs =>
    match escape? c with
    | none => none
    | some e => stringBody (e :: read) fine cs
  | c :: cs => if c.toNat < 0x20 then none else stringBody (c :: read) fine cs
termination_by cs => cs.length
decreasing_by all_goals simp only [List.length_cons]; omega

/-- The digits at the front of the text and the rest. -/
def digitRun (cs : List Char) : List Char × List Char :=
  (cs.takeWhile Char.isDigit, cs.dropWhile Char.isDigit)

/-- The digits after a point; a point without digits is refused. -/
def fractionPart? : List Char → Option (Option (List Char) × List Char)
  | '.' :: cs =>
    let run := digitRun cs
    if run.1.isEmpty then none else some (some run.1, run.2)
  | cs => some (none, cs)

/-- The number after an exponent mark; a mark without digits is refused. -/
def exponentPart? : List Char → Option (Option Int × List Char)
  | [] => some (none, [])
  | c :: cs =>
    if c = 'e' ∨ c = 'E' then
      let signed := match cs with
        | '+' :: cs => (false, cs)
        | '-' :: cs => (true, cs)
        | cs => (false, cs)
      let run := digitRun signed.2
      let n := Int.ofNat (run.1.foldl (fun n d => n * 10 + (d.toNat - '0'.toNat)) 0)
      if run.1.isEmpty then none else some (some (if signed.1 then -n else n), run.2)
    else some (none, c :: cs)

/-- A number at the front of the text. -/
def number? (cs : List Char) : Option (Json × List Char) := do
  let (negative, cs) := match cs with
    | '-' :: cs => (true, cs)
    | cs => (false, cs)
  let run := digitRun cs
  let plain := match run.1 with
    | [] => false
    | d :: more => d ≠ '0' || more.isEmpty
  if plain then
    let (fraction, cs) ← fractionPart? run.2
    let (exponent, cs) ← exponentPart? cs
    return (ofDigits negative run.1 fraction exponent, cs)
  else none

/-- A word at the front of the text. -/
def word? (word : String) (value : Json) (cs : List Char) : Option (Json × List Char) :=
  if word.toList.isPrefixOf cs then some (value, cs.drop word.length) else none

/-! ## Values -/

/-- How deep containers may be nested. -/
def maxDepth : Nat := 127

/-- A container at the given depth, if that is not too deep. -/
def atDepth (depth : Nat) (value : Json) : Json :=
  if depth ≤ maxDepth then value else .unreadable

mutual

/-- A value at the front of the text, after blanks, inside `depth` containers. -/
def value? : Nat → Nat → List Char → Option (Json × List Char)
  | 0, _, _ => none
  | fuel + 1, depth, cs =>
    match skipBlanks cs with
    | [] => none
    | '"' :: cs => do
      let (s, fine, cs) ← stringBody [] true cs
      return (if fine then .text s else .unreadable, cs)
    | '[' :: cs =>
      match skipBlanks cs with
      | ']' :: cs => some (atDepth (depth + 1) (.list []), cs)
      | cs => do
        let (items, cs) ← items? fuel (depth + 1) cs
        return (atDepth (depth + 1) (.list items), cs)
    | '\x7b' :: cs =>
      match skipBlanks cs with
      | '\x7d' :: cs => some (atDepth (depth + 1) (.record []), cs)
      | cs => do
        let (members, cs) ← members? fuel (depth + 1) cs
        return (atDepth (depth + 1) (.record members), cs)
    | 't' :: cs => word? "true" (.bool true) ('t' :: cs)
    | 'f' :: cs => word? "false" (.bool false) ('f' :: cs)
    | 'n' :: cs => word? "null" .null ('n' :: cs)
    | cs => number? cs

/-- One or more items and the closing bracket. -/
def items? : Nat → Nat → List Char → Option (List Json × List Char)
  | 0, _, _ => none
  | fuel + 1, depth, cs => do
    let (item, cs) ← value? fuel depth cs
    match skipBlanks cs with
    | ',' :: cs =>
      let (items, cs) ← items? fuel depth cs
      return (item :: items, cs)
    | ']' :: cs => return ([item], cs)
    | _ => none

/-- One or more members and the closing brace. -/
def members? : Nat → Nat → List Char → Option (List (String × Json) × List Char)
  | 0, _, _ => none
  | fuel + 1, depth, cs =>
    match skipBlanks cs with
    | '"' :: cs => do
      let (name, fine, cs) ← stringBody [] true cs
      if !fine then none
      else match skipBlanks cs with
        | ':' :: cs =>
          let (value, cs) ← value? fuel depth cs
          match skipBlanks cs with
          | ',' :: cs =>
            let (members, cs) ← members? fuel depth cs
            return ((name, value) :: members, cs)
          | '\x7d' :: cs => return ([(name, value)], cs)
          | _ => none
        | _ => none
    | _ => none

end

/-- The value of a whole text. -/
def parse? (s : String) : Option Json :=
  let cs := s.toList
  match value? (2 * cs.length + 2) 0 cs with
  | some (value, rest) => if (skipBlanks rest).isEmpty then some value else none
  | none => none

/-- The value of a whole text given by its bytes. -/
def ofBytes? (bytes : ByteArray) : Option Json := do
  parse? (← Text.decode? bytes)

end Waybill.Json
