/-
  The tokens of YAML text.

  Blocks are told by indentation: a token for the start of a block stands where a line is indented
  more, one for its end where a line is indented less.  A key without a mark of its own is known
  only when the colon after it is read; its token is then put in front of it.

  * `Token` is one token;
  * `Scanner` is the state between two tokens;
  * `tokens?` are the tokens of a whole text.
-/
import Waybill.Yaml.Scalar

namespace Waybill.Yaml

/-- A token. -/
inductive Token where
  | documentStart
  | documentEnd
  | directive (handle tag : String)
  | version
  | sequenceStart
  | mappingStart
  | blockEnd
  | flowSequenceStart
  | flowSequenceEnd
  | flowMappingStart
  | flowMappingEnd
  | entry
  | flowEntry
  | key
  | value
  | alias (name : String)
  | anchor (name : String)
  | tag (handle suffix : String)
  | scalar (text : String) (style : Style)
  deriving DecidableEq, Inhabited

/-! ## The state -/

/-- A place where a key may have started: the number of its first token, whether nothing else can
    stand there, and where it is in the text. -/
structure KeyPlace where
  token : Nat
  required : Bool
  index : Nat
  line : Nat
  column : Nat
  deriving Inhabited

/-- The state between two tokens.  `keys` has a place for each level of brackets, the innermost
    first, and one for the block around them. -/
structure Scanner where
  cursor : Cursor
  tokens : Array Token
  indent : Int
  indents : List Int
  keyAllowed : Bool
  keys : List (Option KeyPlace)
  deriving Inhabited

namespace Scanner

/-- Whether the cursor is inside of brackets. -/
def inFlow (s : Scanner) : Bool := 1 < s.keys.length

/-- The state at the start of a text. -/
def start (cs : List Char) : Scanner := ⟨.start cs, #[], -1, [], true, [none]⟩

/-- One more token. -/
def push (s : Scanner) (t : Token) : Scanner := { s with tokens := s.tokens.push t }

/-- One more token at an earlier place. -/
def insert (s : Scanner) (place : Nat) (t : Token) : Scanner :=
  { s with tokens := (s.tokens.toList.take place ++ t :: s.tokens.toList.drop place).toArray }

/-- Forgets places of keys that are on another line or too far back. -/
def dropStale (s : Scanner) : Option Scanner := do
  let keys ← s.keys.mapM fun k =>
    match k with
    | none => some none
    | some k =>
      if k.line < s.cursor.line || k.index + 1024 < s.cursor.index then
        if k.required then none else some none
      else some (some k)
  return { s with keys }

/-- Forgets the place of the innermost key. -/
def dropKey (s : Scanner) : Option Scanner :=
  match s.keys with
  | some k :: rest => if k.required then none else some { s with keys := none :: rest }
  | _ => some s

/-- Notes that a key may start here. -/
def noteKey (s : Scanner) : Option Scanner :=
  if s.keyAllowed then do
    let s ← s.dropKey
    let c := s.cursor
    let required := !s.inFlow && s.indent == Int.ofNat c.column
    return { s with keys := some ⟨s.tokens.size, required, c.index, c.line, c.column⟩ :: s.keys.drop 1 }
  else some s

/-- Starts a block when the column is further in than the last one. -/
def roll (s : Scanner) (column : Nat) (place : Option Nat) (t : Token) : Scanner :=
  if s.inFlow || Int.ofNat column ≤ s.indent then s
  else
    let s := { s with indents := s.indent :: s.indents, indent := Int.ofNat column }
    match place with
    | some place => s.insert place t
    | none => s.push t

/-- Ends the blocks that are further in than a column; `open` are those still open. -/
def unrollFrom (column : Int) : List Int → Scanner → Scanner
  | [], s => s
  | outer :: rest, s =>
    if column < s.indent then
      unrollFrom column rest { s.push .blockEnd with indent := outer, indents := rest }
    else s

/-- Ends the blocks that are further in than a column. -/
def unroll (s : Scanner) (column : Int) : Scanner :=
  if s.inFlow then s else unrollFrom column s.indents s

/-- A number of characters on. -/
def advance (s : Scanner) (n : Nat) : Scanner := { s with cursor := s.cursor.steps n }

/-! ## Between tokens -/

/-- Over blanks, comments and line breaks. -/
def skipSpace : Nat → Scanner → Scanner
  | 0, s => s
  | fuel + 1, s =>
    let c := (s.cursor.takeWhile fun x => x = ' ' || ((s.inFlow || !s.keyAllowed) && x = '\t')).2
    let c := if c.sees '#' then c.skipLineRest else c
    if c.seesBreak then
      skipSpace fuel { s with cursor := c.newLine, keyAllowed := s.keyAllowed || !s.inFlow }
    else { s with cursor := c }

/-! ## Directives, anchors and tags -/

/-- The characters of a tag's address. -/
def isTagChar (x : Char) : Bool :=
  isWord x || ";/?:@&=+$.%!~*'()".contains x

/-- The characters at the front as a tag's address, escapes read. -/
def tagText? (extra : Bool) (c : Cursor) : Option (String × Cursor) := do
  let (cs, c) := c.takeWhile fun x => isTagChar x || (extra && (x = ',' || x = '[' || x = ']'))
  let bytes ← unescape cs
  return (← Text.decode? ⟨bytes.toArray⟩, c)
where
  /-- The bytes of an address, each escape one of them. -/
  unescape : List Char → Option (List UInt8)
    | '%' :: a :: b :: cs => do
      let n := (← Json.hexDigit? a) * 16 + (← Json.hexDigit? b)
      return UInt8.ofNat n :: (← unescape cs)
    | '%' :: _ => none
    | x :: cs => do return x.toString.toUTF8.toList ++ (← unescape cs)
    | [] => some []

/-- A tag's handle: an exclamation mark, a word, and perhaps another mark. -/
def handle? (c : Cursor) : Option (String × Cursor) :=
  if !c.sees '!' then none
  else
    let (word, c) := c.step.takeWhile isWord
    if c.sees '!' then some ("!" ++ String.ofList word ++ "!", c.step)
    else some ("!" ++ String.ofList word, c)

/-- A tag: its handle and what follows it. -/
def tag? (c : Cursor) : Option (Token × Cursor) := do
  if c.at? 1 = some '<' then
    let (text, c) ← tagText? true (c.steps 2)
    if text.isEmpty || !c.sees '>' then none
    return (.tag "" text, c.step)
  else
    let (handle, c) ← handle? c
    if handle.length > 1 && handle.endsWith "!" then
      let (text, c) ← tagText? false c
      if text.isEmpty then none
      return (.tag handle text, c)
    else
      let (text, c) ← tagText? false c
      let suffix := String.ofList (handle.toList.drop 1) ++ text
      if suffix.isEmpty then return (.tag "" "!", c) else return (.tag "!" suffix, c)

/-- A number of a version: one to nine digits. -/
def versionPart? (c : Cursor) : Option (Nat × Cursor) :=
  let (ds, c) := c.takeWhile Char.isDigit
  if ds.isEmpty || 9 < ds.length then none
  else some (ds.foldl (fun n d => n * 10 + (d.toNat - '0'.toNat)) 0, c)

/-- The version of the language that a text asks for: 1.1 or 1.2. -/
def version? (c : Cursor) : Option Cursor := do
  let (major, c) ← versionPart? c
  if !c.sees '.' then none
  let (minor, c) ← versionPart? c.step
  if major = 1 && (minor = 1 || minor = 2) then return c else none

/-- Over the blanks and the comment at the end of a line, and its break. -/
def lineEnd? (c : Cursor) : Option Cursor :=
  let c := (c.takeWhile isGap).2
  let c := if c.sees '#' then c.skipLineRest else c
  if c.breaksAt 0 then some c.newLine else none

/-- A directive. -/
def directive? (c : Cursor) : Option (Token × Cursor) := do
  let (name, c) := c.step.takeWhile isWord
  if name.isEmpty || !c.endsAt 0 then none
  let c := (c.takeWhile isGap).2
  if name = "YAML".toList then
    return (.version, ← lineEnd? (← version? c))
  else if name = "TAG".toList then
    let (handle, c) ← handle? c
    if handle ≠ "!" && !(1 < handle.length && handle.endsWith "!") then none
    if !c.seesGap then none
    let (text, c) ← tagText? true (c.takeWhile isGap).2
    if text.isEmpty || !c.endsAt 0 then none
    return (.directive handle text, ← lineEnd? c)
  else none

/-- The name of an anchor or alias after its mark. -/
def name? (c : Cursor) : Option (String × Cursor) :=
  let (name, next) := c.step.takeWhile isWord
  if name.isEmpty then none
  else if next.endsAt 0 || next.peek?.any (fun x => "?:,]\x7d%@`".contains x) then
    some (String.ofList name, next)
  else none

/-! ## One token -/

/-- A token that starts at the cursor and may be part of a key. -/
def inKey (s : Scanner) (found : Option (Token × Cursor)) : Option Scanner := do
  let s ← s.noteKey
  let (t, cursor) ← found
  return { s.push t with cursor, keyAllowed := false }

/-- A bracket that opens a level. -/
def openFlow (s : Scanner) (t : Token) : Option Scanner := do
  let s ← s.noteKey
  return { (s.push t).advance 1 with keys := none :: s.keys, keyAllowed := true }

/-- A bracket that closes a level. -/
def closeFlow (s : Scanner) (t : Token) : Option Scanner := do
  let s ← s.dropKey
  let keys := if s.inFlow then s.keys.drop 1 else s.keys
  return { (s.push t).advance 1 with keys, keyAllowed := false }

/-- The dash of an entry. -/
def blockEntry (s : Scanner) : Option Scanner := do
  if !s.inFlow && !s.keyAllowed then none
  let s := s.roll s.cursor.column none .sequenceStart
  let s ← s.dropKey
  return { (s.push .entry).advance 1 with keyAllowed := true }

/-- The mark of a key. -/
def keyMark (s : Scanner) : Option Scanner := do
  if !s.inFlow && !s.keyAllowed then none
  let s := s.roll s.cursor.column none .mappingStart
  let s ← s.dropKey
  return { (s.push .key).advance 1 with keyAllowed := !s.inFlow }

/-- The colon of a value. -/
def valueMark (s : Scanner) : Option Scanner :=
  match s.keys with
  | some k :: rest =>
    let s := (s.insert k.token .key).roll k.column (some k.token) .mappingStart
    some { (s.push .value).advance 1 with keys := none :: rest, keyAllowed := false }
  | _ =>
    if !s.inFlow && !s.keyAllowed then none
    else
      let s := s.roll s.cursor.column none .mappingStart
      some { (s.push .value).advance 1 with keyAllowed := !s.inFlow }

/-- Whether a plain scalar can start here. -/
def startsPlain (s : Scanner) (x : Char) : Bool :=
  let c := s.cursor
  !(isGap x || isBreak x || "-?:,[]\x7b\x7d#&*!|>'\"%@`".contains x) ||
    (x = '-' && !(c.at? 1).any isGap) ||
    (!s.inFlow && (x = '?' || x = ':') && !c.endsAt 1)

/-- The next token or tokens, the cursor on the first character of one. -/
def fetch (s : Scanner) (x : Char) : Option Scanner :=
  let c := s.cursor
  if c.column == 0 && x = '%' then do
    let s ← (s.unroll (-1)).dropKey
    let (t, cursor) ← directive? c
    return { s.push t with cursor, keyAllowed := false }
  else if c.seesMark '-' || c.seesMark '.' then do
    let s ← (s.unroll (-1)).dropKey
    return { (s.push (if x = '-' then .documentStart else .documentEnd)).advance 3 with
      keyAllowed := false }
  else if x = '[' then s.openFlow .flowSequenceStart
  else if x = '\x7b' then s.openFlow .flowMappingStart
  else if x = ']' then s.closeFlow .flowSequenceEnd
  else if x = '\x7d' then s.closeFlow .flowMappingEnd
  else if x = ',' then do
    let s ← s.dropKey
    return { (s.push .flowEntry).advance 1 with keyAllowed := true }
  else if x = '-' && c.endsAt 1 then s.blockEntry
  else if x = '?' && (s.inFlow || c.endsAt 1) then s.keyMark
  else if x = ':' && (s.inFlow || c.endsAt 1) then s.valueMark
  else if x = '*' then s.inKey ((name? c).map fun n => (.alias n.1, n.2))
  else if x = '&' then s.inKey ((name? c).map fun n => (.anchor n.1, n.2))
  else if x = '!' then
    s.inKey ((tag? c).bind fun t =>
      if t.2.endsAt 0 || (s.inFlow && t.2.sees ',') then some t else none)
  else if (x = '|' || x = '>') && !s.inFlow then do
    let s ← s.dropKey
    let (text, cursor) ← block? (x = '|') s.indent c
    let style := if x = '|' then Style.literal else .folded
    return { s.push (.scalar text style) with cursor, keyAllowed := true }
  else if x = '\'' || x = '"' then
    s.inKey ((quoted? c).map fun q => (.scalar q.1 .quoted, q.2))
  else if s.startsPlain x then do
    let s ← s.noteKey
    let (text, broken, cursor) ← plain? s.inFlow (s.indent + 1) c
    return { s.push (.scalar text .plain) with cursor, keyAllowed := broken }
  else none

/-- All further tokens. -/
def scan : Nat → Scanner → Option Scanner
  | 0, _ => none
  | fuel + 1, s => do
    let s ← (s.skipSpace (s.cursor.rest.length + 1)).dropStale
    let s := s.unroll s.cursor.column
    match s.cursor.peek? with
    | none => (s.unroll (-1)).dropKey
    | some x => scan fuel (← s.fetch x)

end Scanner

/-- The tokens of a text. -/
def tokens? (text : String) : Option (List Token) := do
  let cs := match text.toList with
    | '\uFEFF' :: cs => cs
    | cs => cs
  if !cs.all isPrintable then none
  return (← Scanner.scan (2 * cs.length + 2) (.start cs)).tokens.toList

end Waybill.Yaml
