/-
  An import as steps on the store.

  * `Step` is one step of an import of packs: a pack or a document of these, an entry that is
    rejected, or the documents of a pack that are not listed; `Steps` are several.

  Statements: `steps_importPacks` (an import is made of steps, however it ends), `Step.recorded`
  (each keeps the histories in order).
-/
import Mathlib.Logic.Relation
import Waybill.Proofs.Catalog.Content

namespace Waybill.Catalog

open Waybill.History Waybill.Store

/-- A step of an import of packs. -/
inductive Step (setting : Setting) (ps : List PackEntry) (s s' : Store) : Prop
  /-- A pack was added or changed. -/
  | pack {p : PackEntry} {r : Pack} (mem : p ∈ ps) (upsert : upsertPack p.wanted s = .ok (r, s'))
  /-- A document of a pack was imported. -/
  | document {p : PackEntry} {d : DocumentEntry} {row : PackRow} {r : Id × Bool} (mem : p ∈ ps)
    (listed : d ∈ p.documents) (pack : s.packAt (Text.trim p.code) = some row)
    (imported : importDocument setting row.id d s = (.ok r, s'))
  /-- An entry of a pack was rejected. -/
  | rejected {p : PackEntry} {d : DocumentEntry} {row : PackRow} {e : CatalogError} (mem : p ∈ ps)
    (listed : d ∈ p.documents) (pack : s.packAt (Text.trim p.code) = some row)
    (rejected : Rejected setting row.id d s e s')
  /-- The documents of a pack that are not listed were disabled. -/
  | dropped {p : PackEntry} {row : PackRow} {listed : List Id} {n : Nat} (mem : p ∈ ps)
    (pack : s.packAt (Text.trim p.code) = some row)
    (ids : ∀ k e, s.entryAt k = some e →
      (e.row.id ∈ listed ↔ ∃ l ∈ p.documents.map DocumentEntry.label, k = (row.id, l)))
    (dropped : disableUnlisted row.id listed s = .ok (n, s'))

/-- Steps of an import of packs, one after the other. -/
abbrev Steps (setting : Setting) (ps : List PackEntry) : Store → Store → Prop :=
  Relation.ReflTransGen (Step setting ps)

variable {setting : Setting} {ps : List PackEntry} {s s' t : Store}

/-- A step keeps the histories in order. -/
theorem Step.recorded (h : Step setting ps s s') (hs : s.Recorded) : s'.Recorded := by
  cases h with
  | pack _ upsert => exact hs.quiet (quiet_upsertPack _ _ _ _ upsert)
  | document _ _ _ imported => exact (importDocument_keeps_packs hs imported).1
  | rejected _ _ _ rejected =>
    cases rejected with
    | unreadable => exact hs
    | offending _ _ upsert => exact hs.quiet (quiet_upsertDocument _ _ _ _ upsert)
  | dropped _ _ _ dropped =>
    exact (disableUnlisted_keeps advances_setEnabled _ _ _ _ _ dropped hs).1

theorem Steps.recorded (h : Steps setting ps s s') (hs : s.Recorded) : s'.Recorded := by
  induction h with
  | refl => exact hs
  | tail _ step ih => exact step.recorded ih

/-! ## Imports as steps -/

section
variable {p : PackEntry} {row : PackRow} {ds : List DocumentEntry} (hp : p ∈ ps)
  (hds : ∀ d ∈ ds, d ∈ p.documents)
include hp hds

theorem steps_of_importDocuments (hs : s.Recorded) (hat : s.packAt (Text.trim p.code) = some row)
    {report report' : ImportReport} {ids : List Id}
    (h : importDocuments setting row.id ds report s = (.ok (ids, report'), s')) :
    Steps setting ps s s' ∧ s'.packAt (Text.trim p.code) = some row := by
  induction ds generalizing s report ids with
  | nil =>
    obtain ⟨-, rfl⟩ := Run.pure_eq_ok.1 h
    exact ⟨.refl, hat⟩
  | cons d ds ih =>
    obtain ⟨hd, hds⟩ := List.forall_mem_cons.1 hds
    obtain ⟨id, recorded, s₁, ids, hfirst, hrest, -⟩ := importDocuments_cons_eq_ok.1 h
    obtain ⟨hs₁, hpacks⟩ := importDocument_keeps_packs hs hfirst
    obtain ⟨hsteps, hat'⟩ := ih hds hs₁ ((packAt_congr hpacks _).trans hat) hrest
    exact ⟨hsteps.head (.document hp hd hat hfirst), hat'⟩

theorem ReachedIn.steps {d : DocumentEntry} (h : ReachedIn setting row.id d t ds s)
    (hs : s.Recorded) (hat : s.packAt (Text.trim p.code) = some row) :
    Steps setting ps s t ∧ t.packAt (Text.trim p.code) = some row ∧ d ∈ p.documents := by
  induction h with
  | here => exact ⟨.refl, hat, hds _ List.mem_cons_self⟩
  | later first _ ih =>
    obtain ⟨hd, hds⟩ := List.forall_mem_cons.1 hds
    obtain ⟨hs₁, hpacks⟩ := importDocument_keeps_packs hs first
    obtain ⟨hsteps, hat'⟩ := ih hds hs₁ ((packAt_congr hpacks _).trans hat)
    exact ⟨hsteps.head (.document hp hd hat first), hat'⟩

end

/-- The stages of an import of a pack: the pack, its documents, and those that are not listed. -/
theorem stages_of_importPack (hs : s.Recorded) {p : PackEntry} (hp : p ∈ ps)
    {report report' : ImportReport} (h : importPack setting p report s = (.ok report', s')) :
    ∃ row s₁ between ids between' s₂, Step setting ps s s₁ ∧
      s₁.packAt (Text.trim p.code) = some row ∧
      importDocuments setting row.id p.documents between s₁ = (.ok (ids, between'), s₂) ∧
      Step setting ps s₂ s' := by
  obtain ⟨-, pack, s₁, listed, between, s₂, n, hpack, hdocuments, hdropped, -⟩ :=
    importPack_eq_ok.1 h
  have hs₁ := hs.quiet (quiet_upsertPack _ _ _ _ hpack)
  have hat := (lookup_upsertPack hpack).1
  obtain ⟨-, hat₂⟩ := steps_of_importDocuments hp (fun _ hd => hd) hs₁ hat hdocuments
  refine ⟨_, s₁, _, listed, between, s₂, .pack hp hpack, hat, hdocuments,
    .dropped hp hat₂ (fun k e he => ?_) hdropped⟩
  simp only [List.mem_map, exists_exists_and_eq_and]
  exact (importDocuments_frame hs₁.sound hdocuments).ids k e he

/-- An import of a pack is made of steps, however it ends. -/
theorem steps_importPack (setting : Setting) (hs : s.Recorded) {p : PackEntry} (hp : p ∈ ps)
    (report : ImportReport) : Steps setting ps s (importPack setting p report s).2 := by
  rcases himport : importPack setting p report s with ⟨e | report', s'⟩
  · obtain ⟨-, hcode⟩ | ⟨r, s₁, d, t, -, hpack, hreached, ht⟩ := importPack_eq_error himport
    · have hthrow : importPack setting p report s = (.error .emptyPackCode, s) := by
        unfold importPack
        rw [if_pos hcode]
        rfl
      obtain rfl : s = s' := congrArg Prod.snd (hthrow.symm.trans himport)
      exact .refl
    · have hs₁ := hs.quiet (quiet_upsertPack _ _ _ _ hpack)
      obtain ⟨hsteps, hat, hd⟩ := hreached.steps hp (fun _ => id) hs₁ (lookup_upsertPack hpack).1
      have hrow : ∃ row ∈ t.packs.rows, row.id = r.id := ⟨_, (mem_of_packAt hat).1, rfl⟩
      have hrejected := (importDocument_eq_error (hsteps.recorded hs₁) hrow).1 ht
      exact (hsteps.head (.pack hp hpack)).tail (.rejected hp hd hat hrejected)
  · obtain ⟨row, s₁, between, ids, between', s₂, hfirst, hat, hdocuments, hlast⟩ :=
      stages_of_importPack hs hp himport
    obtain ⟨hsteps, -⟩ :=
      steps_of_importDocuments hp (fun _ hd => hd) (hfirst.recorded hs) hat hdocuments
    exact (hsteps.head hfirst).tail hlast

/-- **An import is made of steps**, however it ends. -/
theorem steps_importPacks (setting : Setting) (hs : s.Recorded) (qs : List PackEntry)
    (hqs : ∀ q ∈ qs, q ∈ ps) (report : ImportReport) :
    Steps setting ps s (importPacks setting qs report s).2 := by
  induction qs generalizing s report with
  | nil => exact .refl
  | cons q qs ih =>
    obtain ⟨hq, hqs⟩ := List.forall_mem_cons.1 hqs
    have hfirst := steps_importPack setting hs hq report
    rw [importPacks, Run.bind_eq]
    generalize importPack setting q report s = result at hfirst ⊢
    obtain ⟨e | between, s₁⟩ := result
    · exact hfirst
    · exact hfirst.trans (ih (hfirst.recorded hs) hqs between)

end Waybill.Catalog
