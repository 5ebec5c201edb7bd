/-
  Addressing a payload.

  A path is a text of names joined by dots; blanks around a name do not count, and neither do
  blank names.  A key with the marker `[]` addresses the items of a list: before the marker
  stands the path of the list, after it the path inside each item.

  * `Value.follow` walks a list of names, `Value.resolve` a path;
  * `splitRepeating?` takes a key apart at its first marker;
  * `Value.rows` gives what a repeating key addresses, item by item.

  Statement: `follow_append` (walking two paths one after the other).
-/
import Waybill.Payload.Basic
import Waybill.Text.Split

namespace Waybill.Payload

open Waybill.Text

/-! ## Paths -/

/-- The names of a path. -/
def segments (path : String) : List String :=
  ((splitOn '.' path.toList).map trimmed |>.filter fun name => !name.isEmpty).map String.ofList

namespace Value

/-- The node reached by fields of these names, one inside the other. -/
def follow (v : Value) : List String → Option Value
  | [] => some v
  | name :: names => (v.field? name).bind fun next => follow next names

/-- The node at a path. -/
def resolve (v : Value) (path : String) : Option Value :=
  v.follow (segments path)

theorem follow_append (v : Value) (before after : List String) :
    v.follow (before ++ after) = (v.follow before).bind fun next => next.follow after := by
  induction before generalizing v with
  | nil => rfl
  | cons name names ih =>
    simp only [List.cons_append, follow]
    cases v.field? name with
    | none => rfl
    | some next => exact ih next

end Value

/-! ## Repeating keys -/

/-- The marker of a repeating key. -/
def marker : List Char := ['[', ']']

/-- The path of the list and the path inside each item, if the key has the marker. -/
def splitRepeating? (key : String) : Option (String × String) :=
  (cutAt? marker (trimmed key.toList)).map fun parts =>
    (String.ofList (parts.1.reverse.dropWhile (· = '.')).reverse,
      String.ofList (parts.2.dropWhile (· = '.')))

/-- Whether the key has the marker. -/
def isRepeating (key : String) : Bool :=
  (cutAt? marker key.toList).isSome

/-- What a repeating key addresses, item by item; nothing at all unless its list path, which
    must not be empty, leads to a list. -/
def Value.rows (v : Value) (key : String) : List (Option Value) :=
  match splitRepeating? key with
  | none => []
  | some (path, inside) =>
    if path.isEmpty then []
    else match v.resolve path with
      | some (.list items) =>
        items.map fun item => if inside.isEmpty then some item else item.resolve inside
      | _ => []

end Waybill.Payload
