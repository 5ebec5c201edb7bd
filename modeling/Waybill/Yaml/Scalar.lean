/-
  Reading the scalars of YAML text.

  Line breaks inside of a scalar fold: a single one counts as a blank, of several the first is
  dropped; a block scalar in the literal style keeps them.

  * `Style` is how a scalar is written;
  * `quoted?`, `plain?` and `block?` read one that starts at a cursor.
-/
import Waybill.Json.Parser
import Waybill.Yaml.Cursor

namespace Waybill.Yaml

/-- How a scalar is written. -/
inductive Style where
  | plain
  | quoted
  | literal
  | folded
  deriving DecidableEq, Inhabited

/-! ## Folding -/

/-- The blanks and breaks between two parts of a scalar: blanks of the line, the first break, the
    breaks after it, and whether there was a break at all. -/
structure Space where
  gaps : List Char
  first : List Char
  more : List Char
  broken : Bool
  deriving Inhabited

/-- No space. -/
def Space.none : Space := ⟨[], [], [], false⟩

/-- What the space counts for. -/
def Space.folded (s : Space) : List Char :=
  if !s.broken then s.gaps
  else if s.first.head? = some '\n' then (if s.more.isEmpty then [' '] else s.more)
  else s.first ++ s.more

/-- Over blanks and breaks; `tooFar` refuses a tab in a column. -/
def space? (tooFar : Nat → Bool) : Nat → Space → Cursor → Option (Space × Cursor)
  | 0, _, _ => Option.none
  | fuel + 1, s, c =>
    match c.peek? with
    | some x =>
      if isGap x then
        if s.broken && x = '\t' && tooFar c.column then Option.none
        else if s.broken then space? tooFar fuel s c.step
        else space? tooFar fuel { s with gaps := s.gaps ++ [x] } c.step
      else if isBreak x then
        if s.broken then space? tooFar fuel { s with more := s.more ++ c.breakText } c.newLine
        else space? tooFar fuel ⟨[], c.breakText, s.more, true⟩ c.newLine
      else some (s, c)
    | Option.none => some (s, c)

/-! ## Quoted scalars -/

/-- The character of an escape that stands for one by itself. -/
def escape? (c : Char) : Option Char :=
  match c with
  | '0' => some '\x00'
  | 'a' => some '\x07'
  | 'b' => some '\x08'
  | 't' | '\t' => some '\t'
  | 'n' => some '\n'
  | 'v' => some '\x0b'
  | 'f' => some '\x0c'
  | 'r' => some '\r'
  | 'e' => some '\x1b'
  | ' ' => some ' '
  | '"' => some '"'
  | '/' => some '/'
  | '\\' => some '\\'
  | 'N' => some '\x85'
  | '_' => some '\xa0'
  | 'L' => some '\u2028'
  | 'P' => some '\u2029'
  | _ => Option.none

/-- How many hexadecimal digits follow an escape. -/
def codeLength? (c : Char) : Option Nat :=
  match c with
  | 'x' => some 2
  | 'u' => some 4
  | 'U' => some 8
  | _ => Option.none

/-- The character of a code. -/
def ofCode? (n : Nat) : Option Char :=
  if h : n.isValidChar then some (Char.ofNatAux n h) else Option.none

/-- An escape after its backslash. -/
def escaped? (c : Cursor) : Option (Char × Cursor) := do
  let x ← c.peek?
  match codeLength? x with
  | some n =>
    let ds := c.step.rest.take n
    if ds.length ≠ n then Option.none
    let code ← ds.foldlM (fun code d => (Json.hexDigit? d).map (code * 16 + ·)) 0
    return (← ofCode? code, c.step.steps n)
  | Option.none => return (← escape? x, c.step)

/-- The characters of a quoted scalar up to a blank, a break or the closing quote, and whether an
    escaped break ended them. -/
def quotedRun? (quote : Char) : Nat → List Char → Cursor → Option (List Char × Bool × Cursor)
  | 0, _, _ => Option.none
  | fuel + 1, acc, c =>
    match c.peek? with
    | Option.none => some (acc, false, c)
    | some x =>
      if isGap x || isBreak x then some (acc, false, c)
      else if quote = '\'' && x = '\'' && c.at? 1 = some '\'' then
        quotedRun? quote fuel (acc ++ ['\'']) (c.steps 2)
      else if x = quote then some (acc, false, c)
      else if quote = '"' && x = '\\' then
        if (c.at? 1).any isBreak then some (acc, true, c.step.newLine)
        else
          match escaped? c.step with
          | some (e, c) => quotedRun? quote fuel (acc ++ [e]) c
          | Option.none => Option.none
      else quotedRun? quote fuel (acc ++ [x]) c.step

/-- The rest of a quoted scalar. -/
def quotedBody? (quote : Char) : Nat → List Char → Cursor → Option (List Char × Cursor)
  | 0, _, _ => Option.none
  | fuel + 1, acc, c =>
    if c.seesMark '-' || c.seesMark '.' || c.rest.isEmpty then Option.none
    else do
      let (run, joined, c) ← quotedRun? quote (c.rest.length + 1) [] c
      if c.sees quote then return (acc ++ run, c.step)
      let before : Space := ⟨[], [], [], joined⟩
      let (s, c) ← space? (fun _ => false) (c.rest.length + 1) before c
      quotedBody? quote fuel (acc ++ run ++ s.folded) c

/-- A quoted scalar. -/
def quoted? (c : Cursor) : Option (String × Cursor) := do
  let quote ← c.peek?
  let (text, c) ← quotedBody? quote (c.rest.length + 1) [] c.step
  return (String.ofList text, c)

/-! ## Plain scalars -/

/-- Whether a character ends a plain scalar inside of brackets. -/
def isFlowMark (x : Char) : Bool :=
  x = ',' || x = '[' || x = ']' || x = '\x7b' || x = '\x7d'

/-- The characters of a plain scalar up to a blank, a break or its end, and whether it ended. -/
def plainRun? (inFlow : Bool) : Nat → List Char → Cursor → Option (List Char × Bool × Cursor)
  | 0, _, _ => Option.none
  | fuel + 1, acc, c =>
    match c.peek? with
    | Option.none => some (acc, true, c)
    | some x =>
      if isGap x || isBreak x then some (acc, false, c)
      else if inFlow && x = ':' && (c.at? 1).any (fun y => isFlowMark y || y = '?') then Option.none
      else if (x = ':' && c.endsAt 1) || (inFlow && isFlowMark x) then some (acc, true, c)
      else plainRun? inFlow fuel (acc ++ [x]) c.step

/-- The rest of a plain scalar: what was read, the space after it, and the cursor. -/
def plainBody? (inFlow : Bool) (indent : Int) :
    Nat → List Char → Space → Cursor → Option (List Char × Space × Cursor)
  | 0, _, _, _ => Option.none
  | fuel + 1, acc, s, c =>
    if c.seesMark '-' || c.seesMark '.' || c.sees '#' then some (acc, s, c)
    else do
      let (run, ended, next) ← plainRun? inFlow (c.rest.length + 1) [] c
      let (acc, s) := if run.isEmpty then (acc, s) else (acc ++ s.folded ++ run, Space.none)
      if ended then return (acc, s, next)
      let (s, c) ← space? (fun column => Int.ofNat column < indent) (next.rest.length + 1) s next
      if !inFlow && Int.ofNat c.column < indent then return (acc, s, c)
      plainBody? inFlow indent fuel acc s c

/-- A plain scalar; `indent` is the least column of its further lines.  Tells whether a line break
    follows it. -/
def plain? (inFlow : Bool) (indent : Int) (c : Cursor) : Option (String × Bool × Cursor) := do
  let (text, s, c) ← plainBody? inFlow indent (c.rest.length + 1) [] .none c
  return (String.ofList text, s.broken, c)

/-! ## Block scalars -/

/-- What becomes of the breaks at the end of a block scalar. -/
inductive Chomping where
  | clip
  | strip
  | keep
  deriving DecidableEq, Inhabited

/-- The mark of a chomping. -/
def chomping? (x : Option Char) : Option Chomping :=
  if x = some '+' then some .keep else if x = some '-' then some .strip else Option.none

/-- The mark of an indentation: a digit that is not zero. -/
def increment? (c : Cursor) : Option (Option Nat × Cursor) :=
  match c.peek? with
  | some d =>
    if d = '0' then Option.none
    else if d.isDigit then some (some (d.toNat - '0'.toNat), c.step)
    else some (Option.none, c)
  | Option.none => some (Option.none, c)

/-- The marks after the one that starts a block scalar. -/
def blockHead? (c : Cursor) : Option (Chomping × Option Nat × Cursor) := do
  match chomping? c.peek? with
  | some chomping =>
    let (increment, c) ← increment? c.step
    return (chomping, increment, c)
  | Option.none =>
    let (increment, c) ← increment? c
    match increment, chomping? c.peek? with
    | some n, some chomping => return (chomping, some n, c.step)
    | _, _ => return (.clip, increment, c)

/-- The empty lines before a line of a block scalar: its indentation, when it was not known found
    from them, the breaks, and the cursor. -/
def blockBreaks? (least : Nat) :
    Nat → Option Nat → Nat → List Char → Cursor → Option (Nat × List Char × Cursor)
  | 0, _, _, _, _ => Option.none
  | fuel + 1, indent, widest, breaks, c =>
    let c := match indent with
      | some n =>
        let spaces := ((c.rest.take (n - c.column)).takeWhile (· = ' ')).length
        c.steps spaces
      | Option.none => (c.takeWhile (· = ' ')).2
    let widest := max widest c.column
    if c.sees '\t' && indent.all (fun n => c.column < n) then Option.none
    else if c.seesBreak then
      blockBreaks? least fuel indent widest (breaks ++ c.breakText) c.newLine
    else some (indent.getD (max (max widest least) 1), breaks, c)

/-- The lines of a block scalar: what was read, the last break, and the breaks after it. -/
def blockLines? (literal : Bool) (least indent : Nat) :
    Nat → List Char → List Char → List Char → Bool → Cursor →
      Option (List Char × List Char × List Char × Cursor)
  | 0, _, _, _, _, _ => Option.none
  | fuel + 1, acc, last, more, blankBefore, c =>
    if c.column ≠ indent || c.rest.isEmpty then some (acc, last, more, c)
    else do
      let blank := c.seesGap
      let joint :=
        if !literal && last.head? = some '\n' && !blankBefore && !blank then
          (if more.isEmpty then [' '] else [])
        else last
      let (line, next) := c.takeWhile fun x => !isBreak x
      let (_, breaks, after) ←
        blockBreaks? least (next.rest.length + 1) (some indent) 0 [] next.newLine
      blockLines? literal least indent fuel (acc ++ joint ++ more ++ line) next.breakText breaks
        blank after

/-- A block scalar; `outer` is the indentation around it. -/
def block? (literal : Bool) (outer : Int) (c : Cursor) : Option (String × Cursor) := do
  let (chomping, increment, c) ← blockHead? c.step
  let c := (c.takeWhile isGap).2
  let c := if c.sees '#' then c.skipLineRest else c
  if !c.breaksAt 0 then Option.none
  let c := c.newLine
  let least := (outer + 1).toNat
  let known := increment.map fun n => (if 0 ≤ outer then outer.toNat else 0) + n
  let (indent, breaks, c) ← blockBreaks? least (c.rest.length + 1) known 0 [] c
  let (text, last, more, c) ←
    blockLines? literal least indent (c.rest.length + 1) [] [] breaks false c
  let tail := match chomping with
    | .strip => []
    | .clip => last
    | .keep => last ++ more
  return (String.ofList (text ++ tail), c)

end Waybill.Yaml
