/-
  Marked-up text: elements with attributes around text.

  * `Xml` is a node; `Xml.children`, `Xml.attribute?` and `Xml.content` look into one;
  * `Xml.render` writes a node, `Xml.parse?` reads a whole document.

  Comments, declarations and instructions are passed over; the entities are those every document
  has, and characters by their code.
-/
import Waybill.Text.Split
import Waybill.Json.Parser

namespace Waybill

/-- A node of a document. -/
inductive Xml where
  | element (name : String) (attributes : List (String × String)) (children : List Xml)
  | text (s : String)
  deriving Inhabited

namespace Xml

/-! ## Looking into a node -/

/-- A name without the part that tells its vocabulary. -/
def localName (name : String) : String :=
  match Text.cutAt? [':'] name.toList with
  | some (_, rest) => String.ofList rest
  | none => name

/-- Whether a node is an element of this name. -/
def isNamed (name : String) : Xml → Bool
  | element n _ _ => localName n == name
  | text _ => false

/-- The nodes inside a node. -/
def inside : Xml → List Xml
  | element _ _ children => children
  | text _ => []

/-- The elements of a name directly inside a node. -/
def children (x : Xml) (name : String) : List Xml :=
  x.inside.filter (isNamed name)

/-- The first element of a name directly inside a node. -/
def child? (x : Xml) (name : String) : Option Xml :=
  x.inside.find? (isNamed name)

/-- The attribute of a name. -/
def attribute? (x : Xml) (name : String) : Option String :=
  match x with
  | element _ attributes _ => (attributes.find? fun a => localName a.1 == name).map (·.2)
  | text _ => none

/-- The text directly inside a node. -/
def content (x : Xml) : String :=
  String.join (x.inside.map fun
    | text s => s
    | element .. => "")

/-! ## Writing -/

/-- One character of a text. -/
def escaped (c : Char) : List Char :=
  if c = '&' then "&amp;".toList
  else if c = '<' then "&lt;".toList
  else if c = '>' then "&gt;".toList
  else if c = '"' then "&quot;".toList
  else if c.toNat < 32 then "&#".toList ++ Nat.toDigits 10 c.toNat ++ [';']
  else [c]

/-- A text with its special characters escaped. -/
def escape (s : String) : String :=
  String.ofList (s.toList.flatMap escaped)

/-- The attributes of an element, each after a blank. -/
def renderAttributes (attributes : List (String × String)) : String :=
  String.join (attributes.map fun a => " " ++ a.1 ++ "=\"" ++ escape a.2 ++ "\"")

mutual

/-- The text of a node. -/
def render : Xml → String
  | element name attributes children =>
    "<" ++ name ++ renderAttributes attributes ++ ">" ++ renderAll children ++ "</" ++ name ++ ">"
  | text s => escape s

/-- The text of nodes. -/
def renderAll : List Xml → String
  | [] => ""
  | x :: xs => render x ++ renderAll xs

end

/-- The text of a whole document. -/
def document (x : Xml) : String :=
  "<?xml version=\"1.0\" encoding=\"UTF-8\" standalone=\"yes\"?>\n" ++ x.render

/-! ## Reading -/

/-- The character that an entity stands for. -/
def entity? (name : List Char) : Option Char :=
  match name with
  | '#' :: 'x' :: ds => do
    let n ← ds.foldlM (fun n d => (Json.hexDigit? d).map (n * 16 + ·)) 0
    if ds.isEmpty then none else some (Char.ofNat n)
  | '#' :: ds =>
    if ds.isEmpty || !ds.all Char.isDigit then none
    else some (Char.ofNat (ds.foldl (fun n d => n * 10 + (d.toNat - '0'.toNat)) 0))
  | _ =>
    [("amp", '&'), ("lt", '<'), ("gt", '>'), ("quot", '"'), ("apos", '\'')].lookup
      (String.ofList name)

/-- A text with its entities replaced, the pieces between ampersands given. -/
def unescapePieces : List (List Char) → Option (List Char)
  | [] => some []
  | piece :: pieces => do
    let (name, rest) ← Text.cutAt? [';'] piece
    let c ← entity? name
    return c :: rest ++ (← unescapePieces pieces)

/-- A text with its entities replaced. -/
def unescape? (cs : List Char) : Option String :=
  match Text.splitOn '&' cs with
  | [] => some ""
  | first :: pieces => (unescapePieces pieces).map fun rest => String.ofList (first ++ rest)

/-- Whether a character may stand in a name. -/
def isNameChar (c : Char) : Bool :=
  c.isAlphanum || c = ':' || c = '_' || c = '-' || c = '.' || 0x80 ≤ c.toNat

/-- The text after its blanks. -/
def skipBlanks (cs : List Char) : List Char :=
  cs.dropWhile Char.isWhitespace

/-- The attributes up to the end of a tag. -/
def attributes? : Nat → List Char → Option (List (String × String) × List Char)
  | 0, _ => none
  | fuel + 1, cs =>
    let cs := skipBlanks cs
    let name := cs.takeWhile isNameChar
    if name.isEmpty then some ([], cs)
    else match skipBlanks (cs.dropWhile isNameChar) with
      | '=' :: cs =>
        match skipBlanks cs with
        | quote :: cs =>
          if quote ≠ '"' ∧ quote ≠ '\'' then none
          else do
            let value ← unescape? (cs.takeWhile (· ≠ quote))
            let (rest, cs) ← attributes? fuel ((cs.dropWhile (· ≠ quote)).drop 1)
            return ((String.ofList name, value) :: rest, cs)
        | [] => none
      | _ => none

/-- What stands between two tags. -/
inductive Token where
  | opening (name : String) (attributes : List (String × String)) (closed : Bool)
  | closing (name : String)
  | words (s : String)
  deriving Inhabited

/-- The tokens of a document. -/
def tokens? : Nat → List Char → Option (List Token)
  | 0, _ => none
  | _ + 1, [] => some []
  | fuel + 1, '<' :: '?' :: cs => do
    let (_, cs) ← Text.cutAt? ['?', '>'] cs
    tokens? fuel cs
  | fuel + 1, '<' :: '!' :: '-' :: '-' :: cs => do
    let (_, cs) ← Text.cutAt? ['-', '-', '>'] cs
    tokens? fuel cs
  | fuel + 1, '<' :: '!' :: '[' :: 'C' :: 'D' :: 'A' :: 'T' :: 'A' :: '[' :: cs => do
    let (s, cs) ← Text.cutAt? [']', ']', '>'] cs
    return .words (String.ofList s) :: (← tokens? fuel cs)
  | fuel + 1, '<' :: '!' :: cs => do
    let (_, cs) ← Text.cutAt? ['>'] cs
    tokens? fuel cs
  | fuel + 1, '<' :: '/' :: cs => do
    let (name, cs) ← Text.cutAt? ['>'] cs
    return .closing (String.ofList (name.takeWhile isNameChar)) :: (← tokens? fuel cs)
  | fuel + 1, '<' :: cs => do
    let name := cs.takeWhile isNameChar
    if name.isEmpty then none
    let (attributes, cs) ← attributes? (cs.length + 1) (cs.dropWhile isNameChar)
    match cs with
    | '/' :: '>' :: cs =>
      return .opening (String.ofList name) attributes true :: (← tokens? fuel cs)
    | '>' :: cs =>
      return .opening (String.ofList name) attributes false :: (← tokens? fuel cs)
    | _ => none
  | fuel + 1, c :: cs => do
    let s ← unescape? ((c :: cs).takeWhile (· ≠ '<'))
    return .words s :: (← tokens? fuel ((c :: cs).dropWhile (· ≠ '<')))

/-- An element that is still open: its name, its attributes, and its nodes so far in reverse. -/
abbrev Open : Type := String × List (String × String) × List Xml

/-- The nodes that tokens make up; the open elements are given from the innermost out. -/
def build? : List Open → List Token → Option Xml
  | [], [] => none
  | [(_, _, nodes)], [] => nodes.reverse.find? fun
    | .element .. => true
    | .text _ => false
  | _, [] => none
  | [], _ :: _ => none
  | (name, attributes, nodes) :: outer, .words s :: ts =>
    build? ((name, attributes, .text s :: nodes) :: outer) ts
  | (name, attributes, nodes) :: outer, .opening n a true :: ts =>
    build? ((name, attributes, .element n a [] :: nodes) :: outer) ts
  | stack, .opening n a false :: ts => build? ((n, a, []) :: stack) ts
  | (name, attributes, nodes) :: (n, a, before) :: outer, .closing closed :: ts =>
    if name = closed then
      build? ((n, a, .element name attributes nodes.reverse :: before) :: outer) ts
    else none
  | [_], .closing _ :: _ => none

/-- The outermost element of a document. -/
def parse? (s : String) : Option Xml := do
  let cs := s.toList
  let cs := if cs.head? = some '\uFEFF' then cs.drop 1 else cs
  build? [("", [], [])] (← tokens? (cs.length + 1) cs)

end Xml

end Waybill
