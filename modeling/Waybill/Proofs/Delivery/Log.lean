/-
  The artifacts of a store over time, with every attempt to deliver one.

  * `Store.SparesArtifacts`: a step that leaves the artifacts alone;
  * `Operation.attempts` are the attempts that an operation makes, `World.attempts` those of
    operations in order;
  * `Batch`: attempts for different artifacts of a store, each in a status that is wanted;
  * `Adding`: the artifact that an operation adds, if it adds one.

  Statements: `rows_run` (the artifacts after an operation), `uploads_run` (its uploads are those of
  its attempts), `has_run` and `mem_rows_run` (each artifact before it, and after).
-/
import Waybill.Proofs.Delivery.Attempt
import Waybill.Proofs.Generation.Artifact

namespace Waybill

open Waybill.Drive Waybill.Generation Waybill.Store Waybill.Delivery Waybill.History Waybill.Table

/-! ## Steps that leave the artifacts alone -/

namespace Store

/-- A sound store stays sound, with its artifacts as they are. -/
def SparesArtifacts (s s' : Store) : Prop :=
  s.Sound → s'.Sound ∧ s'.artifacts = s.artifacts

instance : IsPreorder Store SparesArtifacts where
  refl _ hs := ⟨hs, rfl⟩
  trans _ _ _ h h' hs := by
    obtain ⟨hs', ha⟩ := h hs
    obtain ⟨hs'', ha'⟩ := h' hs'
    exact ⟨hs'', ha'.trans ha⟩

theorem upsertPack_spares (p : NewPack) : (upsertPack p).Keeps SparesArtifacts := by
  intro s r s' h hs
  exact ⟨hs.upsertPack h, by rw [(upsertPack_ok h).1]⟩

theorem upsertDocument_spares (d : NewDocument) : (upsertDocument d).Keeps SparesArtifacts := by
  intro s r s' h hs
  refine ⟨hs.upsertDocument h, ?_⟩
  obtain ⟨-, ⟨row, -, -, -, rfl⟩ | ⟨-, -, -, rfl⟩⟩ := upsertDocument_ok h <;> rfl

theorem changeDocument_spares (id : Id) {f : DocumentRow → DocumentRow}
    (hid : ∀ row, (f row).id = row.id) (hkey : ∀ row, (f row).key = row.key) :
    (changeDocument id f).Keeps SparesArtifacts := by
  intro s u s' h hs
  exact ⟨hs.changeDocument h hid hkey, by rw [(changeDocument_eq_ok.1 h).2]⟩

theorem setTemplate_spares (id : Id) (t : Option TemplateFile) :
    (setTemplate id t).Keeps SparesArtifacts :=
  changeDocument_spares id (fun _ => rfl) fun _ => rfl

theorem insertRule_spares (d : Id) (r : Mapping.Rule) :
    (insertRule d r).Keeps SparesArtifacts := by
  intro s i s' h hs
  exact ⟨hs.insertRule h, by rw [(insertRule_eq_ok.1 h).2.2.2]⟩

theorem deleteRules_spares (d : Id) : (deleteRules d).Keeps SparesArtifacts := by
  intro s n s' h hs
  exact ⟨hs.deleteRules h, by rw [(deleteRules_eq_ok.1 h).2]⟩

end Store

theorem Action.Keeps.lifted {α : Type} {R : Store → Store → Prop} {x : Action StoreError α}
    (h : x.Keeps R) : (History.lifted x).Keeps R :=
  fun s a s' hx => h s a s' (Action.lifted_eq_ok.1 hx)

namespace History

theorem replaceRules_spares (d : Id) (rules : List Mapping.Rule) :
    (replaceRules d rules).Keeps SparesArtifacts := by
  refine (deleteRules_spares d).bind fun _ => ?_
  generalize Mapping.Rule.normalizedAll rules = rs
  induction rs with
  | nil => exact .pure _
  | cons r rs ih => exact (insertRule_spares d r).bind fun _ => ih

theorem saveSnapshot_spares (d : Id) (signature : Signature) (change : ChangeType)
    (note : String) : (saveSnapshot d signature change note).Keeps SparesArtifacts := by
  intro s r s' h hs
  have hcommit := (saveSnapshot_iff_commit hs).1 h
  exact ⟨hcommit.sound hs, by rw [hcommit.after]; rfl⟩

theorem saveEdit_spares (d : Id) (edit : Edit) (signature : Signature) (note : String) :
    (saveEdit d edit signature note).Keeps SparesArtifacts := by
  intro s r s' h hs
  have hcommit := (saveEdit_eq_ok hs).1 h
  refine ⟨hcommit.sound hs, ?_⟩
  rw [hcommit.after]
  obtain ⟨_ | t, _ | rules⟩ := edit <;> rfl

theorem restore_spares (id : Id) (signature : Signature) (note : String) :
    (restore id signature note).Keeps SparesArtifacts := by
  refine (Action.Keeps.get.bind fun s => .lift _).lifted.bind fun found => ?_
  rcases found with - | v
  · exact fun s r s' h => (Action.throw_eq_ok.1 h).elim
  · refine (setTemplate_spares v.document v.template).lifted.bind fun _ => ?_
    exact (replaceRules_spares _ _).lifted.bind fun _ => saveSnapshot_spares _ _ _ _

theorem Change.action_spares (c : Change) (signature : Signature) (note : String) :
    (c.action signature note).Keeps SparesArtifacts := by
  cases c with
  | snapshot document change => exact saveSnapshot_spares document signature change note
  | edit document e => exact saveEdit_spares document e signature note
  | restore version => exact restore_spares version signature note

end History

theorem Catalog.importCatalog_spares (setting : Catalog.Setting) (catalog : Catalog) :
    (importCatalog setting catalog).Keeps SparesArtifacts :=
  importCatalog_keeps upsertPack_spares upsertDocument_spares
    (fun id _ => changeDocument_spares id (fun _ => rfl) fun _ => rfl) saveEdit_spares setting
    catalog

/-! ## Attempts of operations -/

/-- The attempts that an operation makes in a world. -/
def Operation.attempts (w : World) : Operation → List Attempt
  | processing around options =>
    Delivery.attempts around options.resolve (selected options.resolve w.store) w.past
  | _ => []

/-- The attempts that operations in order make. -/
def Generation.World.attempts (w : World) : List Operation → List Attempt
  | [] => []
  | op :: ops => op.attempts w ++ (op.run w).attempts ops

namespace Delivery

/-- Attempts for different artifacts of a store, each in a status that is wanted. -/
structure Batch (s : Store) (xs : List Attempt) : Prop where
  has : ∀ x ∈ xs, s.Has x.artifact
  status : ∀ x ∈ xs, x.artifact.status ∈ wanted x.options
  path : ∀ x ∈ xs, ∀ path, x.result = .ok path →
    path = remotePath x.artifact x.options.workDir ∧ (file? x.artifact).isSome
  nodup : (xs.map (·.artifact.id)).Nodup

end Delivery

/-- The artifact that an operation adds, if it adds one. -/
inductive Adding (w : World) : Operation → List ArtifactRow → Prop
  | nothing (op : Operation) : Adding w op []
  | left {around : Surroundings} {setting : Generation.Setting} {request : Request}
    {result : Except PackError Artifact} {w' : World} {new : NewArtifact} {a : Artifact}
    (hrun : (generate setting request).on around w = (result, w'))
    (hleft : LeftAs (new.artifact w.store.artifacts.next) result a) :
    Adding w (.generating around setting request) [⟨a, none⟩]

section
variable {w : World} (hs : w.store.Sound) (op : Operation)
include hs

theorem batch_attempts : Batch w.store (op.attempts w) := by
  cases op with
  | importing | changing | generating => exact ⟨by simp [Operation.attempts],
      by simp [Operation.attempts], by simp [Operation.attempts], .nil⟩
  | processing around options =>
    let xs := Delivery.attempts around options.resolve (selected options.resolve w.store) w.past
    have hmap : xs.map (·.artifact) = selected options.resolve w.store := map_artifact_attempts _ _
    have hmem : ∀ x ∈ xs, x.artifact ∈ selected options.resolve w.store := fun x hx =>
      hmap ▸ List.mem_map_of_mem hx
    refine ⟨fun x hx => (mem_selected (hmem x hx)).1, fun x hx => ?_,
      fun x hx path => path_of_mem_attempts hx, ?_⟩
    · rw [options_of_mem_attempts hx]
      exact (mem_selected (hmem x hx)).2
    · have h : ((selected options.resolve w.store).map (·.id)).Nodup :=
        nodup_selected hs.artifacts
      rwa [← hmap, List.map_map] at h

theorem sound_run : (op.run w).store.Sound := by
  cases op with
  | importing setting catalog => exact (Catalog.importCatalog_spares setting catalog w.store hs).1
  | changing change signature note =>
    exact ((change.action_spares signature note).run w.store hs).1
  | generating around setting request =>
    exact ((quiet_generate setting request).on around w).sound hs
  | processing around options => exact ((quiet_process options).on around w).sound hs

/-- The artifacts after an operation: those of its attempts are changed, and one may be added. -/
theorem rows_run : ∃ added, Adding w op added ∧ (op.run w).store.artifacts.rows =
    w.store.artifacts.rows.map (settle (op.attempts w)) ++ added := by
  cases op with
  | importing setting catalog =>
    refine ⟨[], .nothing _, ?_⟩
    rw [show settle (Operation.attempts w (.importing setting catalog)) = id from rfl, List.map_id,
      List.append_nil]
    exact congrArg Table.rows (Catalog.importCatalog_spares setting catalog w.store hs).2
  | changing change signature note =>
    refine ⟨[], .nothing _, ?_⟩
    rw [show settle (Operation.attempts w (.changing change signature note)) = id from rfl,
      List.map_id, List.append_nil]
    exact congrArg Table.rows ((change.action_spares signature note).run w.store hs).2
  | generating around setting request =>
    rw [show settle (Operation.attempts w (.generating around setting request)) = id from rfl,
      List.map_id]
    rcases generate_rows around setting request w hs with
      ⟨e, hrun⟩ | ⟨result, a, w', hrun, hrows, new, hleft⟩
    · refine ⟨[], .nothing _, ?_⟩
      rw [List.append_nil, Operation.run, hrun]
    · refine ⟨_, .left hrun hleft, ?_⟩
      rw [Operation.run, hrun, hrows]
  | processing around options =>
    refine ⟨[], .nothing _, ?_⟩
    have hbatch := batch_attempts hs (.processing around options)
    rw [List.append_nil, Operation.run, on_process]
    exact rows_noted hs.artifacts hbatch.has hbatch.nodup

omit hs in
/-- What an operation uploads is what its attempts upload. -/
theorem uploads_run :
    uploads (op.run w).past = uploads w.past ++ (op.attempts w).filterMap (·.upload?) := by
  cases op with
  | importing | changing => exact (List.append_nil _).symm
  | generating around setting request =>
    exact ((silent_generate setting request).uploads_eq around w).trans (List.append_nil _).symm
  | processing around options =>
    rw [Operation.run, on_process]
    refine (uploads_append _ _).trans (congrArg (uploads w.past ++ ·) ?_)
    change uploads (List.flatMap _ (Operation.attempts w (.processing around options))) = _
    generalize Operation.attempts w (.processing around options) = xs
    induction xs with
    | nil => rfl
    | cons x xs ih =>
      rw [List.flatMap_cons, uploads_append, ih, x.uploads_events]
      cases h : x.upload? <;> simp [h]

/-! ## Each artifact -/

/-- An artifact is as it was, or an attempt was made for it. -/
theorem has_run {a : Artifact} (ha : w.store.Has a) :
    ((∀ x ∈ op.attempts w, x.artifact.id ≠ a.id) ∧ (op.run w).store.Has a) ∨
    ∃ x ∈ op.attempts w, x.artifact = a ∧ (op.run w).store.Has x.after := by
  obtain ⟨added, -, hrows⟩ := rows_run hs op
  have hmem : settle (op.attempts w) ⟨a, none⟩ ∈ (op.run w).store.artifacts.rows := by
    rw [hrows]
    exact List.mem_append_left _ (List.mem_map_of_mem ha)
  unfold settle at hmem
  cases hx : (op.attempts w).find? fun x => x.artifact.id == a.id with
  | none =>
    rw [hx] at hmem
    exact Or.inl ⟨by simpa using hx, hmem⟩
  | some x =>
    rw [hx] at hmem
    have hxmem := List.mem_of_find?_eq_some hx
    have hid : x.artifact.id = a.id := by simpa using List.find?_some hx
    have heq := hs.artifacts.eq_of_id_eq ((batch_attempts hs op).has x hxmem) ha hid
    exact Or.inr ⟨x, hxmem, congrArg ArtifactRow.artifact heq, hmem⟩

/-- An artifact was as it is, or an attempt was made for it, or it was added. -/
theorem mem_rows_run {row : ArtifactRow} (hrow : row ∈ (op.run w).store.artifacts.rows) :
    ((∀ x ∈ op.attempts w, x.artifact.id ≠ row.artifact.id) ∧ row ∈ w.store.artifacts.rows) ∨
    (∃ x ∈ op.attempts w, row = ⟨x.after, none⟩) ∨ Adding w op [row] := by
  obtain ⟨added, hadding, hrows⟩ := rows_run hs op
  rw [hrows] at hrow
  rcases List.mem_append.1 hrow with hmap | hnew
  · obtain ⟨old, hold, rfl⟩ := List.mem_map.1 hmap
    cases hx : (op.attempts w).find? fun x => x.artifact.id == old.artifact.id with
    | none =>
      rw [settle, hx]
      exact Or.inl ⟨by simpa using hx, hold⟩
    | some x =>
      rw [settle, hx]
      exact Or.inr (Or.inl ⟨x, List.mem_of_find?_eq_some hx, rfl⟩)
  · cases hadding with
    | nothing => cases hnew
    | left hrun hleft =>
      obtain rfl := List.mem_singleton.1 hnew
      exact Or.inr (Or.inr (.left hrun hleft))

end

theorem sound_runAll {w : World} (hs : w.store.Sound) (ops : List Operation) :
    (w.runAll ops).store.Sound := by
  induction ops generalizing w with
  | nil => exact hs
  | cons op ops ih => exact ih (sound_run hs op)

theorem uploads_runAll (w : World) (ops : List Operation) :
    uploads (w.runAll ops).past = uploads w.past ++ (w.attempts ops).filterMap (·.upload?) := by
  induction ops generalizing w with
  | nil => exact (List.append_nil _).symm
  | cons op ops ih =>
    rw [World.attempts, List.filterMap_append, ← List.append_assoc, ← uploads_run]
    exact ih (op.run w)

/-! ## A sample -/

namespace Delivery

/-- An import of one pack with one document, whose template has no sheets. -/
def blankImport : Operation :=
  .importing ⟨fun _ => .ok "\x7b\"sheets\":[]\x7d".toUTF8, "packs", sampleSignature⟩
    ⟨[⟨"A", "", true, .a4, none, [⟨"note", "", 1, true, some "note.json", []⟩]⟩]⟩

/-- Surroundings where a conversion gives a file of one byte, and an upload what is given. -/
def uploading (answer : Except DeliveryError Unit) : Surroundings :=
  { sampleSurroundings with
    convert := fun _ _ _ _ => .ok ⟨#[1]⟩
    upload := fun _ _ _ _ => answer }

/-- A generation of the pack. -/
def sampleGeneration : List Operation :=
  [blankImport, .generating (uploading (.ok ())) sampleSetting (.ofPack "A")]

/-- Two runs of the queue, of which only the second delivers. -/
def sampleRuns : List Operation :=
  [.processing (uploading (.error (.unexpectedStatus 500))) ⟨none, false, none, none, "work"⟩,
    .processing (uploading (.ok ())) ⟨none, false, none, none, "work"⟩]

end Delivery

end Waybill
