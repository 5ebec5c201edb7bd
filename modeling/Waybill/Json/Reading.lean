/-
  Reading typed values out of JSON values.

  A reader is a function `Json → Option α`; it refuses a value of another kind, and every value it
  looks at must be readable.  A structure is given as a record, whose members it does not know are
  passed over and those it knows may stand once, or as a list of its fields in order.

  * `asText`, `asBool`, `asNatBelow`, `asFloat`, `asOption`, `asList`, `asMap` read the basic
    kinds;
  * `parts?` takes a structure apart, and `Parts.required`, `Parts.optional` and `Parts.withDefault`
    read one field of it.
-/
import Waybill.Json.Basic

namespace Waybill.Json

/-! ## Basic kinds -/

/-- A string. -/
def asText : Json → Option String
  | .text s => some s
  | _ => none

/-- A truth value. -/
def asBool : Json → Option Bool
  | .bool b => some b
  | _ => none

/-- A natural number below a bound. -/
def asNatBelow (bound : Nat) : Json → Option Nat
  | .int n => if 0 ≤ n ∧ n.toNat < bound then some n.toNat else none
  | _ => none

/-- Any number. -/
def asFloat : Json → Option Float
  | .int n => some (Float.ofInt n)
  | .float x => some x
  | _ => none

/-- A value of its own, or `null` for none. -/
def asOption {α : Type} (read : Json → Option α) : Json → Option (Option α)
  | .null => some none
  | value => (read value).map some

/-- A list of values. -/
def asList {α : Type} (read : Json → Option α) : Json → Option (List α)
  | .list items => items.mapM read
  | _ => none

/-- The members of a record in the order of names, the last of equal names. -/
def asMap {α : Type} (read : Json → Option α) : Json → Option (List (String × α))
  | .record members => do
    let found ← members.mapM fun m => (read m.2).map fun value => (m.1, value)
    return byName found
  | _ => none

/-- Any value, as it is. -/
def asAny (value : Json) : Option Json :=
  if value.isReadable then some value else none

/-! ## Structures -/

/-- The fields of a structure: their values in the order asked for, and whether they were given
    by position. -/
structure Parts where
  byPosition : Bool
  values : List (Option Json)

/-- The members of one name: at most one. -/
def only? (name : String) (members : List (String × Json)) : Option (Option Json) :=
  match members.filter fun m => m.1 == name with
  | [] => some none
  | [m] => some (some m.2)
  | _ => none

/-- The named fields of a record, or of a list by position. -/
def parts? (names : List String) : Json → Option Parts
  | .record members => do
    return ⟨false, ← names.mapM fun name => only? name members⟩
  | .list items =>
    if items.length ≤ names.length then
      some ⟨true, items.map some ++ List.replicate (names.length - items.length) none⟩
    else none
  | _ => none

namespace Parts

/-- The value of the field at a place. -/
def at? (p : Parts) (i : Nat) : Option Json :=
  (p.values[i]?).join

/-- A field that has to be there. -/
def required {α : Type} (p : Parts) (i : Nat) (read : Json → Option α) : Option α :=
  (p.at? i).bind read

/-- A field that has a value of its own when it is not there. -/
def withDefault {α : Type} (p : Parts) (i : Nat) (default : α) (read : Json → Option α) :
    Option α :=
  match p.at? i with
  | none => some default
  | some value => read value

/-- A field that may be `null`, or missing from a record. -/
def optional {α : Type} (p : Parts) (i : Nat) (read : Json → Option α) : Option (Option α) :=
  match p.at? i with
  | none => if p.byPosition then none else some none
  | some value => asOption read value

end Parts

end Waybill.Json
