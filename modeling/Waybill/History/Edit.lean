/-
  Changing a document and keeping its history.

  A version records the live template and rules of a document under the next number.  An edit
  changes them and records the result; restoring a version makes its template and rules live again
  and records that.  Each of the three is one action, so it does everything or nothing.

  * `HistoryError` is why an action fails, `HistoryError.message` says so;
  * `checkRules` refuses rules with a cell that is none, or with two rules for one cell;
  * `saveSnapshot`, `saveEdit` and `restore` are the actions.
-/
import Waybill.Store.Rules

namespace Waybill.History

open Waybill.Mapping Waybill.Sheet Waybill.Store

/-! ## Errors -/

/-- Why a document or a version cannot be changed. -/
inductive HistoryError where
  | unknownDocument (id : Id)
  | unknownVersion (id : Id)
  | duplicateRule (worksheet cell : String)
  | invalidCell (worksheet cell : String)
  | store (error : StoreError)
  deriving DecidableEq, Inhabited

/-- The text of an error. -/
def HistoryError.message : HistoryError → String
  | .unknownDocument id => "unknown document: " ++ toString id
  | .unknownVersion id => "unknown document version: " ++ toString id
  | .duplicateRule worksheet cell => "duplicate mapping for " ++ worksheet ++ "!" ++ cell
  | .invalidCell worksheet cell => "invalid cell reference " ++ worksheet ++ "!" ++ cell
  | .store e => e.message

/-- An action on the store, as a part of one on the history. -/
def lifted {α : Type} (action : Action StoreError α) : Action HistoryError α :=
  fun s => (action s).mapError .store

/-! ## Rules of an edit -/

/-- Refuses the first rule whose cell is none or was named by an earlier rule. -/
def checkFrom (seen : List (String × Cell)) : List Rule → Except HistoryError Unit
  | [] => .ok ()
  | r :: rs =>
    match Cell.ofText? r.cell with
    | none => .error (.invalidCell r.worksheet r.cell)
    | some cell =>
      if seen.contains (r.worksheet, cell) then .error (.duplicateRule r.worksheet cell.text)
      else checkFrom ((r.worksheet, cell) :: seen) rs

/-- Whether the rules, normalized, name real cells and each cell at most once. -/
def checkRules (rules : List Rule) : Except HistoryError Unit :=
  checkFrom [] (Rule.normalizedAll rules)

/-- Adds rules to a document. -/
def insertRules (document : Id) : List Rule → Action StoreError Unit
  | [] => pure ()
  | r :: rs => do
    let _ ← insertRule document r
    insertRules document rs

/-- Replaces the live rules of a document by these, normalized. -/
def replaceRules (document : Id) (rules : List Rule) : Action StoreError Unit := do
  let _ ← deleteRules document
  insertRules document (Rule.normalizedAll rules)

/-! ## Actions -/

/-- Who changes something, and when. -/
structure Signature where
  user : Option String
  time : Calendar.Instant
  deriving DecidableEq, Inhabited

/-- A change to a document: what is absent stays as it is. -/
structure Edit where
  template : Option (Option TemplateFile)
  rules : Option (List Rule)
  deriving DecidableEq, Inhabited

/-- The document of a number, which has to be there. -/
def document (id : Id) : Action HistoryError Document := do
  match (← get).document? id with
  | some d => return d
  | none => throw (.unknownDocument id)

/-- Records the live template and rules of a document as its next version. -/
def saveSnapshot (id : Id) (signature : Signature) (change : ChangeType) (note : String) :
    Action HistoryError Version := do
  let d ← document id
  let s ← get
  let number := s.nextNumber id
  lifted (insertVersion {
    id := 0
    document := id
    number
    template := d.template.map fun t => { t with name := d.snapshotName number }
    rules := s.rulesOf id
    change
    note := Text.trim note
    createdBy := signature.user
    createdAt := signature.time })

/-- Applies an edit and records the result. -/
def saveEdit (id : Id) (edit : Edit) (signature : Signature) (note : String) :
    Action HistoryError Version := do
  match edit.rules with
  | some rules => liftM (checkRules rules)
  | none => pure ()
  let _ ← document id
  match edit.template with
  | some template => lifted (setTemplate id template)
  | none => pure ()
  match edit.rules with
  | some rules => lifted (replaceRules id rules)
  | none => pure ()
  saveSnapshot id signature .save note

/-- Makes the template and rules of a version live again and records that. -/
def restore (id : Id) (signature : Signature) (note : String) : Action HistoryError Version := do
  match ← lifted (do liftM ((← get).version? id)) with
  | none => throw (.unknownVersion id)
  | some version =>
    lifted (setTemplate version.document version.template)
    lifted (replaceRules version.document version.rules)
    saveSnapshot version.document signature .restore note

end Waybill.History
