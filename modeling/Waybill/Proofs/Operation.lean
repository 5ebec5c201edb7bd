/-
  Everything that is done to a store, one operation after the other.

  * `History.Change` is one of the three changes to a document, `Change.action` makes it and
    `Change.edit?` says what it comes to;
  * `Operation` is an import, a change, a generation or a run of the queue, whether it succeeds or
    not; `World.runAll` does operations in order.

  Statements: `Change.eq_ok_iff` (a change succeeds exactly with the commit of what it comes to),
  `advances_run` and `advances_runAll` (every operation keeps the histories).
-/
import Waybill.Proofs.Catalog.Import
import Waybill.Proofs.Generation.Within

namespace Waybill

open Waybill.Store Waybill.Generation

/-! ## Changes to a document -/

namespace History

/-- A change to a document. -/
inductive Change where
  | snapshot (document : Id) (change : ChangeType)
  | edit (document : Id) (edit : Edit)
  | restore (version : Id)
  deriving DecidableEq

namespace Change

/-- The action that makes the change. -/
def action (signature : Signature) (note : String) : Change → Action HistoryError Version
  | .snapshot document change => saveSnapshot document signature change note
  | .edit document e => saveEdit document e signature note
  | .restore version => History.restore version signature note

/-- The document that is changed, what is edited of it, and how the new version came about; nothing
    when a version that is to be restored is not there. -/
def edit? (s : Store) : Change → Option (Id × Edit × ChangeType)
  | .snapshot document change => some (document, ⟨none, none⟩, change)
  | .edit document e => some (document, e, .save)
  | .restore version =>
    match s.version? version with
    | .ok (some v) => some (v.document, ⟨some v.template, some v.rules⟩, .restore)
    | _ => none

/-- The document that is changed. -/
def document? (s : Store) (c : Change) : Option Id :=
  (c.edit? s).map (·.1)

variable {s s' : Store} {c : Change} {signature : Signature} {note : String} {r : Version}

/-- A version that is read was recorded. -/
theorem sealed_of_version? (hs : s.Recorded) {id : Id} {v : Version}
    (h : s.version? id = .ok (some v)) : v.Sealed ∧ v.id = id ∧ v.row ∈ s.versions.rows := by
  obtain ⟨row, hrow, hread⟩ := version?_eq_some.1 h
  have hmem := List.mem_of_find?_eq_some hrow
  obtain ⟨w, rfl, hw⟩ := hs.versions row hmem
  rw [readVersion_row, hw.template, Except.ok.injEq] at hread
  obtain rfl : w = v := hread
  have hid := List.find?_some hrow
  exact ⟨hw, beq_iff_eq.1 hid, hmem⟩

/-- **A change succeeds exactly with the commit of what it comes to.** -/
theorem eq_ok_iff (hs : s.Recorded) :
    c.action signature note s = .ok (r, s') ↔ ∃ d e change,
      c.edit? s = some (d, e, change) ∧ Commit s d e signature change note r s' := by
  cases c with
  | snapshot document change => simp [action, edit?, saveSnapshot_iff_commit hs.sound]
  | edit document e => simp [action, edit?, saveEdit_eq_ok hs.sound]
  | restore version =>
    simp only [action, edit?]
    constructor
    · intro h
      obtain ⟨v, hv⟩ := version?_of_restore h
      have hrules := (sealed_of_version? hs hv).1.rules.checkRules
      exact ⟨_, _, _, by rw [hv], (restore_eq_ok hs.sound hv hrules).1 h⟩
    · rintro ⟨d, e, change, hedit, h⟩
      split at hedit
      · next v hv =>
        obtain ⟨rfl, rfl, rfl⟩ := by simpa using hedit
        have hrules := (sealed_of_version? hs hv).1.rules.checkRules
        exact (restore_eq_ok hs.sound hv hrules).2 h
      · cases hedit

theorem advances_action (c : Change) (signature : Signature) (note : String) :
    (c.action signature note).Keeps Advances := by
  intro s r s' h hs
  obtain ⟨d, e, change, -, hcommit⟩ := (eq_ok_iff hs).1 h
  exact hcommit.advances hs

end Change

end History

/-! ## Operations -/

/-- What is done to a store, with the surroundings that it is done in. -/
inductive Operation where
  | importing (setting : Catalog.Setting) (catalog : Catalog)
  | changing (change : History.Change) (signature : History.Signature) (note : String)
  | generating (around : Surroundings) (setting : Generation.Setting) (request : Request)
  | processing (around : Surroundings) (options : Delivery.Options)

/-- The world after an operation, which may have failed. -/
def Operation.run : Operation → World → World
  | importing setting catalog, w =>
    { w with store := (Catalog.importCatalog setting catalog w.store).2 }
  | changing change signature note, w =>
    { w with store := (w.store.run (change.action signature note)).2 }
  | generating around setting request, w => ((generate setting request).on around w).2
  | processing around options, w => ((Delivery.process options).on around w).2

/-- The world after operations in order. -/
def Generation.World.runAll (w : World) (ops : List Operation) : World :=
  ops.foldl (fun w op => op.run w) w

/-- The world before anything was done. -/
def Generation.World.start : World := ⟨.empty, []⟩

theorem advances_run (op : Operation) (w : World) : Advances w.store (op.run w).store := by
  cases op with
  | importing setting catalog => exact Catalog.advances_importCatalog setting catalog w.store
  | changing change signature note => exact (change.advances_action signature note).run w.store
  | generating around setting request =>
    exact ((quiet_generate setting request).on around w).advances
  | processing around options =>
    exact ((Delivery.quiet_process options).on around w).advances

theorem advances_runAll (ops : List Operation) (w : World) :
    Advances w.store (w.runAll ops).store := by
  induction ops generalizing w with
  | nil => exact .refl _
  | cons op ops ih => exact (advances_run op w).trans (ih (op.run w))

theorem runAll_append (w : World) (before after : List Operation) :
    w.runAll (before ++ after) = (w.runAll before).runAll after := List.foldl_append

/-- The histories of a store are in order, whatever was done to it. -/
theorem recorded_runAll (ops : List Operation) : (World.start.runAll ops).store.Recorded :=
  (advances_runAll ops World.start recorded_empty).1

/-! ## A sample -/

/-- Who imports the sample catalog. -/
def sampleSignature : History.Signature := ⟨some "ana", .ofEpoch 0 0⟩

/-- An import of one pack with one document, whose only rule has blanks around its cell. -/
def sampleImport : Operation :=
  .importing ⟨fun _ => .ok ⟨#[80, 75]⟩, "packs", sampleSignature⟩
    ⟨[⟨"A", "", true, .a4, none, [⟨"note", "", 1, true, some "note.xlsx",
      [⟨"Sheet1", " b2 ", "shipment.reference", "", true, 0⟩]⟩]⟩]⟩

/-- The document that is imported. -/
def sampleDocument : Document :=
  ⟨1, 1, "A", "note", "", 1, true, some ⟨"note.xlsx", ⟨#[80, 75]⟩⟩⟩

/-- The version that the import records. -/
def sampleVersion : Version where
  id := 1
  document := 1
  number := 1
  template := some ⟨"A__note__default__v1.xlsx", ⟨#[80, 75]⟩⟩
  rules := [⟨"Sheet1", "b2", "shipment.reference", "", true, 1⟩]
  change := .save
  note := "catalog import"
  createdBy := some "ana"
  createdAt := .ofEpoch 0 0

theorem sample_document :
    (World.start.runAll [sampleImport]).store.document? 1 = some sampleDocument := by
  cbv

theorem sample_versions :
    (World.start.runAll [sampleImport]).store.versionsOf 1 = .ok [sampleVersion] := by
  cbv

end Waybill
