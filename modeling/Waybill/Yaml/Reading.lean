/-
  Reading typed values out of YAML nodes.

  A reader is a function `Node → Option α`.  A scalar is read as the kind that is asked for: every
  scalar is a text, and one that is not quoted may be a truth value or a number.  A value that was
  left out counts as an empty text, list or structure.

  * `asText`, `asBool`, `asNatBelow`, `asWord`, `asOption`, `asList` read the basic kinds;
  * `parts?` takes a structure apart, and `Parts.required`, `Parts.optional` and `Parts.withDefault`
    read one field of it.
-/
import Waybill.Yaml.Node

namespace Waybill.Yaml

/-! ## Words and numbers -/

/-- The words for nothing. -/
def isNullWord (s : String) : Bool :=
  ["null", "Null", "NULL", "~"].contains s

/-- The truth value of a word. -/
def truth? (s : String) : Option Bool :=
  if ["true", "True", "TRUE"].contains s then some true
  else if ["false", "False", "FALSE"].contains s then some false
  else none

/-- The number that digits stand for. -/
def digits? (base : Nat) (ds : List Char) : Option Nat :=
  if ds.isEmpty then none
  else ds.foldlM (fun n d => do
    let v ← Json.hexDigit? d
    if v < base then some (n * base + v) else none) 0

/-- The natural number of a word: decimal digits without leading zeros, or digits of another base
    after `0x`, `0o` or `0b`; a plus may stand before it. -/
def natural? (s : String) : Option Nat :=
  let cs := match s.toList with
    | '+' :: cs => cs
    | cs => cs
  match cs with
  | '0' :: 'x' :: ds => digits? 16 ds
  | '0' :: 'o' :: ds => digits? 8 ds
  | '0' :: 'b' :: ds => digits? 2 ds
  | '0' :: _ :: _ => none
  | ds => digits? 10 ds

namespace Node

/-! ## Basic kinds -/

/-- The address of a standard tag. -/
def standardTag (name : String) : String := "tag:yaml.org,2002:" ++ name

/-- The text of a scalar that may be of a kind other than text: a plain one, or a literal one with
    the tag of that kind. -/
def bare? (kind : String) : Node → Option String
  | .scalar text .plain _ => some text
  | .scalar text .literal tag => if tag = some (standardTag kind) then some text else none
  | _ => none

/-- Any scalar, as it is written. -/
def asText : Node → Option String
  | .scalar text _ _ => some text
  | _ => none

/-- A truth value. -/
def asBool (n : Node) : Option Bool :=
  (n.bare? "bool").bind truth?

/-- A natural number below a bound. -/
def asNatBelow (bound : Nat) (n : Node) : Option Nat :=
  ((n.bare? "int").bind natural?).filter (· < bound)

/-- Whether a node is a plain scalar for nothing. -/
def isVoid : Node → Bool
  | .scalar text .plain _ => text.isEmpty || isNullWord text
  | _ => false

/-- A word of a vocabulary: a scalar, or a tag with nothing after it. -/
def asWord {α : Type} (ofName : String → Option α) : Node → Option α
  | .scalar text _ none => ofName text
  | .scalar text style (some tag) =>
    if (scalar text style none).isVoid then
      match tag.toList with
      | '!' :: name => ofName (String.ofList name)
      | _ => ofName tag
    else none
  | _ => none

/-- A value of its own, or nothing. -/
def asOption {α : Type} (read : Node → Option α) (n : Node) : Option (Option α) :=
  match n with
  | .scalar text .plain none =>
    if n.isVoid then some none else (read (.scalar text .plain none)).map some
  | .scalar text .plain (some tag) =>
    if tag = standardTag "null" then (if isNullWord text then some none else none)
    else (read n).map some
  | n => (read n).map some

/-- A list of values. -/
def asList {α : Type} (read : Node → Option α) : Node → Option (List α)
  | .sequence items _ => items.mapM read
  | .scalar "" .plain _ => some []
  | _ => none

/-! ## Structures -/

/-- The pairs of a structure; its keys have to be scalars. -/
def fields? : Node → Option (List (String × Node))
  | .mapping pairs _ => pairs.mapM fun p => p.1.asText.map fun key => (key, p.2)
  | .scalar "" .plain _ => some []
  | _ => none

end Node

/-- The fields of a structure, in the order asked for. -/
abbrev Parts : Type := List (Option Node)

/-- The value of a name, which may stand once. -/
def only? (name : String) (fields : List (String × Node)) : Option (Option Node) :=
  match fields.filter fun f => f.1 == name with
  | [] => some none
  | [f] => some (some f.2)
  | _ => none

/-- The named fields of a structure; other ones are passed over. -/
def Node.parts? (names : List String) (n : Node) : Option Parts := do
  let fields ← n.fields?
  names.mapM fun name => only? name fields

namespace Parts

/-- The value of the field at a place. -/
def at? (p : Parts) (i : Nat) : Option Node :=
  (p[i]?).join

/-- A field that has to be there. -/
def required {α : Type} (p : Parts) (i : Nat) (read : Node → Option α) : Option α :=
  (p.at? i).bind read

/-- A field that has a value of its own when it is not there. -/
def withDefault {α : Type} (p : Parts) (i : Nat) (default : α) (read : Node → Option α) :
    Option α :=
  match p.at? i with
  | none => some default
  | some n => read n

/-- A field that may be nothing or missing. -/
def optional {α : Type} (p : Parts) (i : Nat) (read : Node → Option α) : Option (Option α) :=
  match p.at? i with
  | none => some none
  | some n => n.asOption read

end Parts

/-- The value of a text with one document. -/
def ofText? {α : Type} (read : Node → Option α) (text : String) : Option α := do
  read ((← Document.ofText? text).getD .nothing)

end Waybill.Yaml
