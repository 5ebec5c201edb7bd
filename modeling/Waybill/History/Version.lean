/-
  Versions: what a document was at a moment of its history.

  * `ChangeType` is how a version came about;
  * `Version` is a document's template and rules at one time.
-/
import Waybill.Calendar.Instant
import Waybill.Mapping.Rule
import Waybill.Pack.Basic

namespace Waybill

/-- How a version came about. -/
inductive ChangeType where
  | save
  | restore
  deriving DecidableEq, Inhabited

namespace ChangeType

/-- The name of a change. -/
def name : ChangeType → String
  | .save => "save"
  | .restore => "restore"

/-- The change of a name. -/
def ofName (s : String) : Except UnknownWord ChangeType :=
  match s with
  | "save" => .ok .save
  | "restore" => .ok .restore
  | _ => .error ⟨"change type", s⟩

end ChangeType

/-- A version of a document.  Its number is kept in 32 bits. -/
structure Version where
  id : Id
  document : Id
  number : Nat
  template : Option TemplateFile
  rules : List Mapping.Rule
  change : ChangeType
  note : String
  createdBy : Option String
  createdAt : Calendar.Instant
  deriving DecidableEq, Inhabited

end Waybill
