/-
  What the actions on a document do.

  Each of the three actions edits the template and the rules of one document, or neither, and
  records the result as a version.

  * `Commit` relates the store before such an action to its answer and the store after it.

  Statements: `saveSnapshot_iff_commit`, `saveEdit_eq_ok` and `restore_eq_ok` (each action succeeds
  exactly with a commit), `commit_exists` (an edit that is let in can be recorded), and one lemma
  for each view of the store after a commit.
-/
import Waybill.Proofs.History.Edit

namespace Waybill.History

open Waybill.Mapping Waybill.Store Waybill.Table

variable {s s' : Store} {d : Id}

/-! ## Commits -/

/-- An edit that was let in, and the version that records the document after it. -/
structure Commit (s : Store) (d : Id) (edit : Edit) (signature : Signature) (change : ChangeType)
    (note : String) (r : Version) (s' : Store) : Prop where
  checked : ∀ rules ∈ edit.rules, checkRules rules = .ok ()
  version : ∃ doc, (s.edited d edit).document? d = some doc ∧
    r = (s.edited d edit).snapshot doc signature change note
  after : s' = (s.edited d edit).recorded r

variable {edit : Edit} {signature : Signature} {change : ChangeType} {note : String} {r : Version}

theorem spelling_ne_of_checkRules {rules : List Rule} (h : checkRules rules = .ok ()) :
    (Rule.normalizedAll rules).Pairwise fun a b => a.spelling ≠ b.spelling :=
  spelling_ne_of_target_ne (checkRules_eq_ok.1 h).2

theorem isSome_document?_edited (s : Store) (d : Id) (edit : Edit) :
    ((s.edited d edit).document? d).isSome = (s.document? d).isSome := by
  rw [document?_edited, Option.isSome_map]

/-- An edit that is let in, of a document that is there, can be recorded. -/
theorem commit_exists (hd : (s.document? d).isSome)
    (hc : ∀ rules ∈ edit.rules, checkRules rules = .ok ()) (signature : Signature)
    (change : ChangeType) (note : String) : ∃ r s', Commit s d edit signature change note r s' := by
  obtain ⟨doc, hdoc⟩ := Option.isSome_iff_exists.1 (isSome_document?_edited s d edit ▸ hd)
  exact ⟨_, _, hc, ⟨doc, hdoc, rfl⟩, rfl⟩

/-! ## Views after a commit -/

namespace Commit

variable {e : Id}

theorem isSome_document? (h : Commit s d edit signature change note r s') :
    (s.document? d).isSome := by
  obtain ⟨doc, hdoc, -⟩ := h.version
  rw [← isSome_document?_edited s d edit, hdoc]
  rfl

/-- The version is what is live afterwards. -/
theorem eq_snapshot (h : Commit s d edit signature change note r s') :
    ∃ doc, s'.document? d = some doc ∧
      r = { id := s.versions.next
            document := d
            number := s.nextNumber d
            template := doc.template.map fun t =>
              { t with name := doc.snapshotName (s.nextNumber d) }
            rules := s'.rulesOf d
            change := change
            note := Text.trim note
            createdBy := signature.user
            createdAt := signature.time } := by
  obtain ⟨doc, hdoc, hr⟩ := h.version
  refine ⟨doc, by rw [h.after]; exact hdoc, ?_⟩
  rw [hr, h.after, snapshot, document?_id hdoc, versions_edited]
  unfold nextNumber
  rw [versions_edited]
  rfl

theorem versions (h : Commit s d edit signature change note r s') :
    s'.versions = s.versions.push fun _ => r.row := by
  obtain ⟨doc, -, hr⟩ := h.eq_snapshot
  have hid : r.id = s.versions.next := by rw [hr]
  rw [h.after, recorded, versions_edited]
  simp only [Table.push, ← hid]

theorem document_eq (h : Commit s d edit signature change note r s') : r.document = d := by
  obtain ⟨doc, -, hr⟩ := h.eq_snapshot
  rw [hr]

theorem number_eq (h : Commit s d edit signature change note r s') :
    r.number = s.nextNumber d := by
  obtain ⟨doc, -, hr⟩ := h.eq_snapshot
  rw [hr]

theorem rules_eq (h : Commit s d edit signature change note r s') : r.rules = s'.rulesOf d := by
  obtain ⟨doc, -, hr⟩ := h.eq_snapshot
  rw [hr]

theorem versionRows (h : Commit s d edit signature change note r s') :
    s'.versionRows d = s.versionRows d ++ [r.row] := by
  rw [Store.versionRows, h.versions, rows_push, List.filter_append,
    List.filter_cons_of_pos (by simp [Version.row, h.document_eq]), List.filter_nil]
  rfl

theorem versionRows_of_ne (h : Commit s d edit signature change note r s') (he : e ≠ d) :
    s'.versionRows e = s.versionRows e := by
  rw [Store.versionRows, h.versions, rows_push, List.filter_append,
    List.filter_cons_of_neg (by simp [Version.row, h.document_eq, he.symm]), List.filter_nil,
    List.append_nil]
  rfl

theorem rulesOf (h : Commit s d edit signature change note r s') :
    s'.rulesOf d = (edit.rules.map fun rules =>
      inSequence (fun r => r.sequence) (Rule.normalizedAll rules)).getD (s.rulesOf d) := by
  rw [h.after]
  exact rulesOf_edited s d edit

theorem document? (h : Commit s d edit signature change note r s') :
    s'.document? d = (s.document? d).map fun doc =>
      { doc with template := (edit.template.map TemplateFile.present?).getD doc.template } := by
  rw [h.after]
  exact document?_edited s d edit

theorem ruleRows_of_ne (h : Commit s d edit signature change note r s') (he : e ≠ d) :
    s'.ruleRows e = s.ruleRows e := by
  rw [h.after]
  exact ruleRows_edited_of_ne he s edit

theorem document?_of_ne (h : Commit s d edit signature change note r s') (he : e ≠ d) :
    s'.document? e = s.document? e := by
  rw [h.after]
  exact document?_edited_of_ne he s edit

theorem sound (hs : s.Sound) (h : Commit s d edit signature change note r s') : s'.Sound := by
  have hrow := hs.document?_isSome.1 h.isSome_document?
  have hsound := sound_edited hs hrow fun rules hr => spelling_ne_of_checkRules (h.checked rules hr)
  obtain ⟨doc, hdoc, hr⟩ := h.version
  have hid := document?_id hdoc
  rw [h.after]
  refine hsound.recorded ?_ fun row hrow hrd hnum => ?_
  · rw [hr]
    exact hsound.document?_isSome.1 (by rw [snapshot, hid, hdoc]; rfl)
  · have hmem : row ∈ (s.edited d edit).versionRows doc.id :=
      List.mem_filter.2 ⟨hrow, by simpa [hr, snapshot] using hrd⟩
    have := number_lt_nextNumber hmem
    rw [hnum, hr] at this
    exact Nat.lt_irrefl _ this

end Commit

/-! ## Actions are commits -/

theorem saveSnapshot_iff_commit (hs : s.Sound) :
    saveSnapshot d signature change note s = .ok (r, s') ↔
      Commit s d ⟨none, none⟩ signature change note r s' := by
  rw [saveSnapshot_eq_ok hs]
  constructor
  · rintro ⟨doc, hdoc, rfl, rfl⟩
    exact ⟨by simp, ⟨doc, hdoc, rfl⟩, rfl⟩
  · rintro ⟨-, ⟨doc, hdoc, rfl⟩, rfl⟩
    exact ⟨doc, hdoc, rfl, rfl⟩

/-- Once the check is passed, an edit is applied and recorded. -/
theorem applyEdit_saveSnapshot_iff_commit (hs : s.Sound) (hd : (s.document? d).isSome)
    (hc : ∀ rules ∈ edit.rules, checkRules rules = .ok ()) :
    (applyEdit d edit >>= fun _ => saveSnapshot d signature change note) s = .ok (r, s') ↔
      Commit s d edit signature change note r s' := by
  have hrow := hs.document?_isSome.1 hd
  have hp := fun rules hr => spelling_ne_of_checkRules (hc rules hr)
  rw [Action.bind_eq_ok]
  constructor
  · rintro ⟨_, _, happly, h⟩
    obtain ⟨-, rfl⟩ := (applyEdit_eq_ok hrow).1 happly
    obtain ⟨doc, hdoc, rfl, rfl⟩ := (saveSnapshot_eq_ok (sound_edited hs hrow hp)).1 h
    exact ⟨hc, ⟨doc, hdoc, rfl⟩, rfl⟩
  · rintro ⟨-, ⟨doc, hdoc, rfl⟩, rfl⟩
    exact ⟨(), _, (applyEdit_eq_ok hrow).2 ⟨hp, rfl⟩,
      (saveSnapshot_eq_ok (sound_edited hs hrow hp)).2 ⟨doc, hdoc, rfl, rfl⟩⟩

/-- The check of an edit's rules, if it has any. -/
def checkEdit (edit : Edit) : Except HistoryError Unit :=
  edit.rules.elim (.ok ()) checkRules

theorem checkEdit_eq_ok {u : Unit} :
    checkEdit edit = .ok u ↔ ∀ rules ∈ edit.rules, checkRules rules = .ok () := by
  obtain ⟨t, _ | rules⟩ := edit <;> simp [checkEdit]

theorem saveEdit_eq :
    saveEdit d edit signature note = (do
      liftM (checkEdit edit)
      let _ ← document d
      applyEdit d edit
      saveSnapshot d signature .save note) := by
  obtain ⟨_ | t, _ | rules⟩ := edit <;> simp [saveEdit, applyEdit, checkEdit] <;> rfl

/-- **An edit succeeds exactly when it is let in**, and then it is recorded. -/
theorem saveEdit_eq_ok (hs : s.Sound) :
    saveEdit d edit signature note s = .ok (r, s') ↔
      Commit s d edit signature .save note r s' := by
  rw [saveEdit_eq, Action.lift_bind_eq_ok]
  constructor
  · rintro ⟨_, hc, h⟩
    obtain ⟨doc, s₁, hdoc, hsave⟩ := Action.bind_eq_ok.1 h
    obtain ⟨hdoc, rfl⟩ := document_eq_ok.1 hdoc
    exact (applyEdit_saveSnapshot_iff_commit hs (by simp [hdoc]) (checkEdit_eq_ok.1 hc)).1 hsave
  · intro h
    obtain ⟨doc, hdoc, -⟩ := h.version
    have hd : (s.document? d).isSome := by
      rw [← isSome_document?_edited s d edit, hdoc]; rfl
    obtain ⟨doc, hdoc⟩ := Option.isSome_iff_exists.1 hd
    exact ⟨(), checkEdit_eq_ok.2 h.checked, Action.bind_eq_ok.2 ⟨doc, s,
      document_eq_ok.2 ⟨hdoc, rfl⟩, (applyEdit_saveSnapshot_iff_commit hs hd h.checked).2 h⟩⟩

/-- A version that is read belongs to a document. -/
theorem document?_of_version? (hs : s.Sound) {id : Id} {v : Version}
    (h : s.version? id = .ok (some v)) : (s.document? v.document).isSome := by
  obtain ⟨row, hrow, hread⟩ := version?_eq_some.1 h
  obtain ⟨t, rfl, -⟩ := readVersion_eq_ok.1 hread
  exact hs.document?_isSome.2 (hs.versionDocuments _ (List.mem_of_find?_eq_some hrow))

/-- What restoring a version does, if there is one. -/
theorem restore_eq (id : Id) :
    restore id signature note = (do
      match ← lifted (do liftM ((← get).version? id)) with
      | none => throw (.unknownVersion id)
      | some v =>
        applyEdit v.document ⟨some v.template, some v.rules⟩
        saveSnapshot v.document signature .restore note) := by
  unfold restore
  congr 1
  funext found
  cases found <;> simp [applyEdit]

theorem version?_of_restore {id : Id} (h : restore id signature note s = .ok (r, s')) :
    ∃ v, s.version? id = .ok (some v) := by
  obtain ⟨found, _, hfound, h⟩ := Action.bind_eq_ok.1 h
  rw [Action.lifted_eq_ok, Action.get_bind_eq_ok, Action.lift_eq_ok] at hfound
  cases found with
  | none => exact absurd h (by simp)
  | some v => exact ⟨v, hfound.1⟩

/-- **Restoring a version is an edit** by its template and rules. -/
theorem restore_eq_ok (hs : s.Sound) {id : Id} {v : Version} (hv : s.version? id = .ok (some v))
    (hc : checkRules v.rules = .ok ()) :
    restore id signature note s = .ok (r, s') ↔
      Commit s v.document ⟨some v.template, some v.rules⟩ signature .restore note r s' := by
  have hcommit : _ ↔
      Commit s v.document ⟨some v.template, some v.rules⟩ signature .restore note r s' :=
    applyEdit_saveSnapshot_iff_commit hs (document?_of_version? hs hv) (by simpa using hc)
  rw [restore_eq, Action.bind_eq_ok, ← hcommit]
  simp only [Action.lifted_eq_ok, Action.get_bind_eq_ok, Action.lift_eq_ok, hv, Except.ok.injEq]
  constructor
  · rintro ⟨_, _, ⟨rfl, rfl⟩, h⟩
    exact h
  · intro h
    exact ⟨some v, s, ⟨rfl, rfl⟩, h⟩

end Waybill.History
