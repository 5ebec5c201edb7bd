/-
  A place in YAML text.

  * `isPrintable` are the characters that such a text may have;
  * `isBreak` and `isGap` are line breaks and blanks;
  * `Cursor` is the rest of a text with the line and column it starts at; `Cursor.step` goes one
    character on, `Cursor.newLine` over a line break, and `Cursor.breakText` is what that counts for.
-/

namespace Waybill.Yaml

/-! ## Characters -/

/-- The characters that a text may have. -/
def isPrintable (c : Char) : Bool :=
  let n := c.toNat
  n == 0x09 || n == 0x0A || n == 0x0D || (0x20 ≤ n && n ≤ 0x7E) || n == 0x85 ||
    (0xA0 ≤ n && n ≤ 0xD7FF) || (0xE000 ≤ n && n ≤ 0xFFFD && n != 0xFEFF) || 0x10000 ≤ n

/-- A line break. -/
def isBreak (c : Char) : Bool :=
  c = '\n' || c = '\r' || c = '\x85' || c = '\u2028' || c = '\u2029'

/-- A blank inside of a line. -/
def isGap (c : Char) : Bool :=
  c = ' ' || c = '\t'

/-- The characters of names of anchors, tags and directives. -/
def isWord (c : Char) : Bool :=
  c.isAlphanum || c = '_' || c = '-'

/-! ## Cursors -/

/-- The rest of a text and where it starts. -/
structure Cursor where
  rest : List Char
  index : Nat
  line : Nat
  column : Nat
  deriving Inhabited

namespace Cursor

/-- The start of a text. -/
def start (cs : List Char) : Cursor := ⟨cs, 0, 0, 0⟩

/-- The next character. -/
def peek? (c : Cursor) : Option Char := c.rest.head?

/-- The character a number of places on. -/
def at? (c : Cursor) (n : Nat) : Option Char := c.rest[n]?

/-- Whether the next character is this one. -/
def sees (c : Cursor) (x : Char) : Bool := c.peek? == some x

/-- Whether a line break or the end is a number of places on. -/
def breaksAt (c : Cursor) (n : Nat) : Bool :=
  match c.at? n with
  | none => true
  | some x => isBreak x

/-- Whether a blank, a line break or the end is a number of places on. -/
def endsAt (c : Cursor) (n : Nat) : Bool :=
  match c.at? n with
  | none => true
  | some x => isGap x || isBreak x

/-- Whether a line break is next. -/
def seesBreak (c : Cursor) : Bool := c.peek?.any isBreak

/-- Whether a blank is next. -/
def seesGap (c : Cursor) : Bool := c.peek?.any isGap

/-- One character on. -/
def step (c : Cursor) : Cursor :=
  match c.rest with
  | [] => c
  | _ :: rest => { c with rest, index := c.index + 1, column := c.column + 1 }

/-- A number of characters on. -/
def steps (c : Cursor) (n : Nat) : Cursor :=
  { c with rest := c.rest.drop n, index := c.index + n, column := c.column + n }

/-- Over a line break, if one is next. -/
def newLine (c : Cursor) : Cursor :=
  match c.rest with
  | '\r' :: '\n' :: rest => ⟨rest, c.index + 2, c.line + 1, 0⟩
  | x :: rest => if isBreak x then ⟨rest, c.index + 1, c.line + 1, 0⟩ else c
  | [] => c

/-- What a line break counts for: a line feed, unless it separates lines or paragraphs. -/
def breakText (c : Cursor) : List Char :=
  match c.peek? with
  | some x =>
    if x = '\u2028' || x = '\u2029' then [x] else if isBreak x then ['\n'] else []
  | none => []

/-- Over the characters of a kind; they come first in the answer. -/
def takeWhile (c : Cursor) (p : Char → Bool) : List Char × Cursor :=
  let taken := c.rest.takeWhile p
  (taken, c.steps taken.length)

/-- Over the rest of the line. -/
def skipLineRest (c : Cursor) : Cursor :=
  (c.takeWhile fun x => !isBreak x).2

/-- Whether the mark of a document's start or end is next, at the start of a line. -/
def seesMark (c : Cursor) (x : Char) : Bool :=
  c.column == 0 && c.at? 0 == some x && c.at? 1 == some x && c.at? 2 == some x && c.endsAt 3

end Cursor

end Waybill.Yaml
