/-
  Documents are numbered from one on.

  * `Table.Positive`: the numbers of a table are positive, and so are those to come;
  * `Counts` relates a store to one whose documents are still numbered in this way.

  Statements: `counts_run` (every operation numbers documents in this way), `positive_runAll`.
-/
import Waybill.Proofs.Catalog.Lookup
import Waybill.Proofs.Operation

namespace Waybill

open Waybill.Store Waybill.Generation

/-! ## Tables -/

namespace Table

variable {α : Type} {id : α → Id} {t : Table α}

/-- The numbers of a table are positive, and so are those to come. -/
structure Positive (id : α → Id) (t : Table α) : Prop where
  last : 0 ≤ t.last
  rows : ∀ a ∈ t.rows, 0 < id a

theorem positive_empty (id : α → Id) : (Table.empty : Table α).Positive id :=
  ⟨Int.le_refl 0, by simp [Table.empty]⟩

namespace Positive

theorem next (h : t.Positive id) : 0 < t.next :=
  Int.lt_add_one_of_le h.last

theorem push (h : t.Positive id) (row : Id → α) (hid : id (row t.next) = t.next) :
    (t.push row).Positive id := by
  refine ⟨Int.le_of_lt h.next, fun a ha => ?_⟩
  rcases mem_push.1 ha with ha | rfl
  · exact h.rows a ha
  · rw [hid]
    exact h.next

theorem skip (h : t.Positive id) : t.skip.Positive id :=
  ⟨Int.le_of_lt h.next, h.rows⟩

theorem change (h : t.Positive id) {which : α → Bool} {f : α → α}
    (hf : ∀ a, which a → id (f a) = id a) : (t.change which f).Positive id := by
  refine ⟨h.last, fun b hb => ?_⟩
  obtain ⟨a, ha, rfl⟩ := mem_change.1 hb
  rw [view_change hf]
  exact h.rows a ha

end Positive

end Table

/-! ## Stores -/

namespace Store

/-- A step after which documents are still numbered from one on. -/
def Counts (s s' : Store) : Prop :=
  Advances s s' ∧
    (s.Recorded → s.documents.Positive DocumentRow.id → s'.documents.Positive DocumentRow.id)

instance : IsPreorder Store Counts where
  refl s := ⟨.refl s, fun _ h => h⟩
  trans _ _ _ h h' := ⟨h.1.trans h'.1, fun hs hp => h'.2 (h.1 hs).1 (h.2 hs hp)⟩

variable {s s' : Store}

theorem Counts.of_documents (h : Advances s s') (hd : s'.documents = s.documents) : Counts s s' :=
  ⟨h, fun _ hp => hd ▸ hp⟩

theorem counts_upsertPack (p : NewPack) : (upsertPack p).Keeps Counts := by
  intro s r s' h
  refine .of_documents (Catalog.advances_upsertPack p _ _ _ h) ?_
  obtain ⟨rfl, -⟩ := upsertPack_ok h
  rfl

theorem counts_upsertDocument (d : NewDocument) : (upsertDocument d).Keeps Counts := by
  intro s r s' h
  refine ⟨Catalog.advances_upsertDocument d _ _ _ h, fun _ hp => ?_⟩
  obtain ⟨-, ⟨row, -, -, -, rfl⟩ | ⟨-, -, -, rfl⟩⟩ := upsertDocument_ok h
  · have hid : ∀ row : DocumentRow, d.matches row → (d.onto row).id = row.id := fun _ _ => rfl
    exact (hp.change hid).skip
  · exact hp.push d.row rfl

theorem counts_setEnabled (id : Id) (enabled : Bool) : (setEnabled id enabled).Keeps Counts := by
  intro s u s' h
  refine ⟨Catalog.advances_setEnabled id enabled _ _ _ h, fun _ hp => ?_⟩
  obtain ⟨-, rfl⟩ := changeDocument_eq_ok.1 h
  have hid : ∀ row : DocumentRow, row.id == id → { row with enabled }.id = row.id := fun _ _ => rfl
  exact hp.change hid

theorem counts_insertArtifact (a : NewArtifact) : (insertArtifact a).Keeps Counts := by
  intro s r s' h
  exact .of_documents (quiet_insertArtifact a _ _ _ h).advances (by rw [insertArtifact_ok h])

theorem counts_insertItem (item : ArtifactItem) : (insertItem item).Keeps Counts := by
  intro s i s' h
  refine .of_documents (quiet_insertItem item _ _ _ h).advances ?_
  obtain ⟨-, -, rfl⟩ := insertItem_eq_ok.1 h
  rfl

theorem counts_finalize (id : Id) (pdfName : String) (pdf : ByteArray) (checksum : String) :
    (finalize id pdfName pdf checksum).Keeps Counts := by
  intro s r s' h
  refine .of_documents (quiet_finalize id pdfName pdf checksum _ _ _ h).advances ?_
  rw [(finalize_eq_ok.1 h).1]
  rfl

theorem counts_markFailed (id : Id) (error : String) : (markFailed id error).Keeps Counts := by
  intro s u s' h
  refine .of_documents (quiet_markFailed id error _ _ _ h).advances ?_
  rw [Action.modify_eq_ok.1 h]
  rfl

theorem counts_recordOutcome (a : Artifact) : (recordOutcome a).Keeps Counts := by
  intro s u s' h
  refine .of_documents (quiet_recordOutcome a _ _ _ h).advances ?_
  rw [Action.modify_eq_ok.1 h]
  rfl

end Store

namespace History

theorem Commit.counts {s s' : Store} {d : Id} {edit : Edit} {signature : Signature}
    {change : ChangeType} {note : String} {r : Version}
    (h : Commit s d edit signature change note r s') : Counts s s' := by
  refine ⟨h.advances, fun _ hp => ?_⟩
  have hdocuments : s'.documents = (s.edited d edit).documents := by
    rw [h.after]
    rfl
  rw [hdocuments, documents_edited]
  have hid : ∀ row : DocumentRow, row.id == d →
      { row with template := edit.template.getD row.template }.id = row.id := fun _ _ => rfl
  exact hp.change hid

theorem counts_saveEdit (id : Id) (edit : Edit) (signature : Signature) (note : String) :
    (saveEdit id edit signature note).Keeps Counts := by
  intro s r s' h
  have hcommit (hs : s.Recorded) := (saveEdit_eq_ok hs.sound).1 h
  exact ⟨fun hs => (hcommit hs).counts.1 hs, fun hs => (hcommit hs).counts.2 hs⟩

theorem Change.counts_action (c : Change) (signature : Signature) (note : String) :
    (c.action signature note).Keeps Counts := by
  intro s r s' h
  refine ⟨c.advances_action signature note _ _ _ h, fun hs => ?_⟩
  obtain ⟨d, e, change, -, hcommit⟩ := (Change.eq_ok_iff hs).1 h
  exact hcommit.counts.2 hs

end History

/-! ## Operations -/

theorem counts_run (op : Operation) (w : World) : Counts w.store (op.run w).store := by
  cases op with
  | importing setting catalog =>
    exact Catalog.importCatalog_keeps counts_upsertPack counts_upsertDocument counts_setEnabled
      History.counts_saveEdit setting catalog w.store
  | changing change signature note => exact (change.counts_action signature note).run w.store
  | generating around setting request =>
    exact (generate_within counts_insertArtifact counts_insertItem counts_finalize
      counts_markFailed setting request).on around w
  | processing around options =>
    exact (Delivery.process_within counts_recordOutcome options).on around w

theorem counts_runAll (ops : List Operation) (w : World) :
    Counts w.store (w.runAll ops).store := by
  induction ops generalizing w with
  | nil => exact refl_of Counts w.store
  | cons op ops ih => exact trans_of Counts (counts_run op w) (ih (op.run w))

/-- **Documents are numbered from one on**, whatever was done to the store. -/
theorem positive_runAll (ops : List Operation) :
    (World.start.runAll ops).store.documents.Positive DocumentRow.id :=
  (counts_runAll ops World.start).2 recorded_empty (Table.positive_empty _)

end Waybill
