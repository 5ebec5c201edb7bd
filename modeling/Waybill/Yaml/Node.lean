/-
  The nodes of a YAML document.

  * `Node` is a scalar, a sequence or a mapping; an alias is the node it names, and inside of that
    node itself a `loop`;
  * `Document.ofText?` reads a text with one document, which may be empty.
-/
import Waybill.Yaml.Token

namespace Waybill.Yaml

/-- A node; the tag is the address it stands for. -/
inductive Node where
  | scalar (text : String) (style : Style) (tag : Option String)
  | sequence (items : List Node) (tag : Option String)
  | mapping (pairs : List (Node × Node)) (tag : Option String)
  | loop
  deriving Inhabited

/-- The node of nothing. -/
def Node.nothing : Node := .scalar "" .plain none

/-! ## Reading -/

/-- What is known while nodes are read: the tokens to come, the nodes with names, and the handles of
    tags. -/
structure Reader where
  tokens : List Token
  names : List (String × Node)
  handles : List (String × String)
  deriving Inhabited

namespace Reader

/-- The next token. -/
def peek? (r : Reader) : Option Token := r.tokens.head?

/-- After the next token. -/
def step (r : Reader) : Reader := { r with tokens := r.tokens.drop 1 }

/-- Whether the next token is one of these. -/
def sees (r : Reader) (ts : List Token) : Bool := r.peek?.any ts.contains

/-- The node gets a name. -/
def named (r : Reader) (name : Option String) (n : Node) : Reader :=
  match name with
  | some name => { r with names := (name, n) :: r.names }
  | none => r

/-- The address that a tag stands for. -/
def address? (r : Reader) (handle suffix : String) : Option String :=
  if handle.isEmpty then some suffix
  else (r.handles.lookup handle).map (· ++ suffix)

/-- The name and the tag before a node, in either order. -/
def properties? (r : Reader) : Option (Option String × Option String × Reader) :=
  match r.tokens with
  | .anchor a :: .tag h s :: ts => do return (some a, some (← r.address? h s), { r with tokens := ts })
  | .tag h s :: .anchor a :: ts => do return (some a, some (← r.address? h s), { r with tokens := ts })
  | .anchor a :: ts => some (some a, none, { r with tokens := ts })
  | .tag h s :: ts => do return (none, some (← r.address? h s), { r with tokens := ts })
  | _ => some (none, none, r)

mutual

/-- A node: `block` allows one told by indentation, `dashes` entries that are not. -/
def node? (block dashes : Bool) : Nat → Reader → Option (Node × Reader)
  | 0, _ => none
  | fuel + 1, r => do
    match r.peek? with
    | some (.alias name) => return (← r.names.lookup name, r.step)
    | _ => pure ()
    let (name, tag, r) ← r.properties?
    let inner := r.named name .loop
    match r.peek? with
    | some (.scalar text style) =>
      let n := Node.scalar text style tag
      return (n, r.step.named name n)
    | some .entry =>
      if dashes then
        let (items, after) ← dashed? fuel inner
        let n := Node.sequence items tag
        return (n, after.named name n)
      else empty? name tag r
    | some .flowSequenceStart =>
      let (items, after) ← flowItems? true fuel inner.step
      let n := Node.sequence items tag
      return (n, after.named name n)
    | some .flowMappingStart =>
      let (pairs, after) ← flowPairs? true fuel inner.step
      let n := Node.mapping pairs tag
      return (n, after.named name n)
    | some .sequenceStart =>
      if block then
        let (items, after) ← entries? fuel inner.step
        let n := Node.sequence items tag
        return (n, after.named name n)
      else empty? name tag r
    | some .mappingStart =>
      if block then
        let (pairs, after) ← pairs? fuel inner.step
        let n := Node.mapping pairs tag
        return (n, after.named name n)
      else empty? name tag r
    | _ => empty? name tag r

/-- A node of which there is but the name or the tag. -/
def empty? (name tag : Option String) (r : Reader) : Option (Node × Reader) :=
  if name.isNone && tag.isNone then none
  else
    let n := Node.scalar "" .plain tag
    some (n, r.named name n)

/-- The entries of a block up to its end. -/
def entries? : Nat → Reader → Option (List Node × Reader)
  | 0, _ => none
  | fuel + 1, r =>
    match r.peek? with
    | some .entry => do
      let r := r.step
      let (n, r) ← if r.sees [.entry, .blockEnd] then some (.nothing, r) else node? true false fuel r
      let (ns, r) ← entries? fuel r
      return (n :: ns, r)
    | some .blockEnd => some ([], r.step)
    | _ => none

/-- Entries that are not indented. -/
def dashed? : Nat → Reader → Option (List Node × Reader)
  | 0, _ => none
  | fuel + 1, r =>
    match r.peek? with
    | some .entry => do
      let r := r.step
      let (n, r) ←
        if r.sees [.entry, .key, .value, .blockEnd] then some (.nothing, r)
        else node? true false fuel r
      let (ns, r) ← dashed? fuel r
      return (n :: ns, r)
    | _ => some ([], r)

/-- The pairs of a block up to its end. -/
def pairs? : Nat → Reader → Option (List (Node × Node) × Reader)
  | 0, _ => none
  | fuel + 1, r =>
    match r.peek? with
    | some .blockEnd => some ([], r.step)
    | some .key => do
      let r := r.step
      let (k, r) ←
        if r.sees [.key, .value, .blockEnd] then some (.nothing, r) else node? true true fuel r
      let (v, r) ← blockValue? fuel r
      let (rest, r) ← pairs? fuel r
      return ((k, v) :: rest, r)
    | some .value => none
    | _ => none

/-- The value of a pair of a block. -/
def blockValue? : Nat → Reader → Option (Node × Reader)
  | 0, _ => none
  | fuel + 1, r =>
    if r.sees [.value] then
      let r := r.step
      if r.sees [.key, .value, .blockEnd] then some (.nothing, r) else node? true true fuel r
    else some (.nothing, r)

/-- The items of a sequence in brackets. -/
def flowItems? (first : Bool) : Nat → Reader → Option (List Node × Reader)
  | 0, _ => none
  | fuel + 1, r => do
    if r.sees [.flowSequenceEnd] then return ([], r.step)
    let r ← if first then some r else if r.sees [.flowEntry] then some r.step else none
    if r.sees [.flowSequenceEnd] then return ([], r.step)
    let (n, r) ← if r.sees [.key] then single? fuel r.step else node? false false fuel r
    let (ns, r) ← flowItems? false fuel r
    return (n :: ns, r)

/-- A pair that is an item of a sequence in brackets. -/
def single? : Nat → Reader → Option (Node × Reader)
  | 0, _ => none
  | fuel + 1, r => do
    let (k, r) ←
      if r.sees [.value, .flowEntry, .flowSequenceEnd] then some (.nothing, r.step)
      else node? false false fuel r
    if r.sees [.value] then
      let r := r.step
      if r.sees [.flowEntry, .flowSequenceEnd] then return (.mapping [(k, .nothing)] none, r)
      else
        let (v, r) ← node? false false fuel r
        return (.mapping [(k, v)] none, r)
    else return (.mapping [(k, .nothing)] none, r)

/-- The pairs of a mapping in braces. -/
def flowPairs? (first : Bool) : Nat → Reader → Option (List (Node × Node) × Reader)
  | 0, _ => none
  | fuel + 1, r => do
    if r.sees [.flowMappingEnd] then return ([], r.step)
    let r ← if first then some r else if r.sees [.flowEntry] then some r.step else none
    if r.sees [.flowMappingEnd] then return ([], r.step)
    let (pair, r) ←
      if r.sees [.key] then do
        let r := r.step
        let (k, r) ←
          if r.sees [.value, .flowEntry, .flowMappingEnd] then some (.nothing, r)
          else node? false false fuel r
        let (v, r) ←
          if r.sees [.value] then
            let r := r.step
            if r.sees [.flowEntry, .flowMappingEnd] then some (.nothing, r)
            else node? false false fuel r
          else some (.nothing, r)
        some ((k, v), r)
      else do
        let (k, r) ← node? false false fuel r
        some ((k, .nothing), r)
    let (rest, r) ← flowPairs? false fuel r
    return (pair :: rest, r)

end

/-- Over the directives before a document; each handle may be given once, and so may a version. -/
def directives? : Nat → Bool → Reader → Option Reader
  | 0, _, _ => none
  | fuel + 1, versioned, r =>
    match r.peek? with
    | some .version => if versioned then none else directives? fuel true r.step
    | some (.directive handle tag) =>
      if (r.handles.lookup handle).isSome then none
      else directives? fuel versioned { r.step with handles := (handle, tag) :: r.handles }
    | _ => some r

end Reader

/-! ## Documents -/

/-- A document: a node, or nothing at all. -/
abbrev Document : Type := Option Node

/-- The handles that need no directive. -/
def standardHandles : List (String × String) :=
  [("!", "!"), ("!!", "tag:yaml.org,2002:")]

/-- The document of tokens: one only, with its marks around it. -/
def Document.ofTokens? (tokens : List Token) : Option Document := do
  if tokens.isEmpty then return none
  let fuel := 4 * tokens.length + 4
  let r ← Reader.directives? fuel false ⟨tokens, [], []⟩
  let directed := r.tokens.length < tokens.length
  let r := { r with handles := r.handles ++ standardHandles }
  let (n, r) ←
    if r.sees [.documentStart] then
      let r := r.step
      if r.tokens.isEmpty || r.sees [.documentStart, .documentEnd, .version] then
        some (Node.nothing, r)
      else r.node? true false fuel
    else if directed then none
    else r.node? true false fuel
  if r.tokens.all (· == .documentEnd) then return some n else none

/-- The document of a text. -/
def Document.ofText? (text : String) : Option Document := do
  Document.ofTokens? (← tokens? text)

end Waybill.Yaml
