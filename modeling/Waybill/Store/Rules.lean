/-
  The live rules and the versions of a store's documents.

  * `rulesOf` lists the rules of a document in their sequence; `insertRule` and `deleteRules` change
    them, no two of them for one spelling of a cell;
  * `nextNumber` is the number of a document's next version;
  * `insertVersion` adds a version, `version?` and `versionsOf` read them, newest first.
-/
import Waybill.Store.Packs

namespace Waybill.Store

open Waybill.Mapping

/-! ## Rules -/

/-- The live rules of a document with their numbers. -/
def ruleRows (s : Store) (document : Id) : List RuleRow :=
  inSequence (·.rule.sequence) (s.rules.rows.filter fun row => row.document == document)

/-- The live rules of a document. -/
def rulesOf (s : Store) (document : Id) : List Rule :=
  (s.ruleRows document).map (·.rule)

/-- Adds a rule to a document. -/
def insertRule (document : Id) (rule : Rule) : Action StoreError Id := do
  let s ← get
  if s.rules.rows.any fun row =>
      row.document == document && row.rule.worksheet == rule.worksheet &&
        row.rule.cell == rule.cell then
    throw (.notUnique
      ["cell_mappings.document_id", "cell_mappings.worksheet_name", "cell_mappings.cell_ref"])
  if !s.documents.rows.any fun row => row.id == document then throw .noSuchRow
  set { s with rules := s.rules.push fun id => ⟨id, document, rule⟩ }
  return s.rules.next

/-- Removes the rules of a document and tells how many there were. -/
def deleteRules (document : Id) : Action StoreError Nat := do
  let s ← get
  set { s with rules := s.rules.erase fun row => row.document == document }
  return (s.rules.rows.filter fun row => row.document == document).length

/-! ## Versions -/

/-- A version as it is read. -/
def readVersion (row : VersionRow) : Except StoreError Version := do
  let change ← row.change.read 6
  match row.snapshot with
  | .unreadable => throw .snapshot
  | .rules rules =>
    return ⟨row.id, row.document, row.number, TemplateFile.present? row.template, rules, change,
      row.note, row.createdBy, row.createdAt⟩

/-- The number of a document's next version: one more than the greatest there is.  There are numbers
    below `2 ^ 32`, for as many versions of one document. -/
def nextNumber (s : Store) (document : Id) : Nat :=
  ((s.versions.rows.filter fun row => row.document == document).map (·.number)).foldl max 0 + 1

/-- The version of a number. -/
def version? (s : Store) (id : Id) : Except StoreError (Option Version) :=
  (s.versions.rows.find? fun row => row.id == id).mapM readVersion

/-- The versions of a document, newest first. -/
def versionsOf (s : Store) (document : Id) : Except StoreError (List Version) :=
  ((s.versions.rows.filter fun row => row.document == document).mergeSort
    fun a b => b.number ≤ a.number).mapM readVersion

/-- Adds a version to a document. -/
def insertVersion (version : Version) : Action StoreError Version := do
  let s ← get
  if !s.documents.rows.any fun row => row.id == version.document then throw .noSuchRow
  let id := s.versions.next
  let s := { s with
    versions := s.versions.push fun id =>
      ⟨id, version.document, version.number, version.template, .rules version.rules,
        .known version.change, version.note, version.createdBy, version.createdAt⟩ }
  set s
  match ← liftM (s.version? id) with
  | some found => return found
  | none => throw (.notFound "document version" id)

end Waybill.Store
