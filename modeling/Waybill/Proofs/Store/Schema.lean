/-
  What every store promises, and the actions that keep it.

  * `Store.Sound`: rows are told apart by their numbers and by the keys of their tables, and a row
    that names a row of another table names one that is there;
  * for each action, when it succeeds and what the store is after it (`changeDocument_eq_ok`,
    `insertRule_eq_ok`, `insertVersion_eq_ok` and so on);
  * for each action, that a sound store is sound after it (`Sound.upsertPack`, `Sound.insertItem`
    and so on).
-/
import Waybill.Proofs.Store.Action
import Waybill.Proofs.Store.Tables
import Waybill.Store.Artifacts

namespace Waybill

open Waybill.Mapping Waybill.Table

/-! ## Keys -/

/-- What tells the documents of a store apart. -/
def DocumentRow.key (row : DocumentRow) : Id × String × String :=
  (row.pack, row.type, row.variant)

/-- What tells the live rules of a store apart: the document and the spelling of the cell. -/
def RuleRow.key (row : RuleRow) : Id × String × String :=
  (row.document, row.rule.worksheet, row.rule.cell)

/-- What tells the versions of a store apart. -/
def VersionRow.key (row : VersionRow) : Id × Nat :=
  (row.document, row.number)

/-- A version as it is kept. -/
def Version.row (v : Version) : VersionRow where
  id := v.id
  document := v.document
  number := v.number
  template := v.template
  snapshot := .rules v.rules
  change := .known v.change
  note := v.note
  createdBy := v.createdBy
  createdAt := v.createdAt

namespace Store

variable {s s' : Store}

/-- The promises of the six tables: numbers, keys and references. -/
structure Sound (s : Store) : Prop where
  packs : s.packs.Numbered PackRow.id
  documents : s.documents.Numbered DocumentRow.id
  rules : s.rules.Numbered RuleRow.id
  versions : s.versions.Numbered VersionRow.id
  artifacts : s.artifacts.Numbered fun row => row.artifact.id
  items : s.items.Numbered ArtifactItem.id
  packCodes : s.packs.Distinct PackRow.code
  documentKeys : s.documents.Distinct DocumentRow.key
  ruleKeys : s.rules.Distinct RuleRow.key
  versionKeys : s.versions.Distinct VersionRow.key
  documentPacks : s.documents.Refers DocumentRow.pack s.packs PackRow.id
  ruleDocuments : s.rules.Refers RuleRow.document s.documents DocumentRow.id
  versionDocuments : s.versions.Refers VersionRow.document s.documents DocumentRow.id
  itemArtifacts : s.items.Refers ArtifactItem.artifact s.artifacts fun row => row.artifact.id

theorem sound_empty : Store.empty.Sound where
  packs := numbered_empty _
  documents := numbered_empty _
  rules := numbered_empty _
  versions := numbered_empty _
  artifacts := numbered_empty _
  items := numbered_empty _
  packCodes := distinct_empty _
  documentKeys := distinct_empty _
  ruleKeys := distinct_empty _
  versionKeys := distinct_empty _
  documentPacks := refers_empty _ _ _
  ruleDocuments := refers_empty _ _ _
  versionDocuments := refers_empty _ _ _
  itemArtifacts := refers_empty _ _ _

/-! ## Packs -/

/-- The packs with one more, or with the one of its code changed. -/
def NewPack.into (p : NewPack) (t : Table PackRow) : Table PackRow :=
  if t.rows.any fun row => row.code == p.code then
    (t.change (fun row => row.code == p.code) fun row => p.row row.id).skip
  else t.push p.row

theorem upsertPack_ok {p : NewPack} {r : Pack} (h : upsertPack p s = .ok (r, s')) :
    s' = { s with packs := p.into s.packs } ∧ packByCode? s' p.code = .ok (some r) := by
  simp only [upsertPack, Action.get_bind_eq_ok, Action.set_bind_eq_ok] at h
  simp only [Action.bind_eq_ok, Action.lift_eq_ok] at h
  obtain ⟨found, _, ⟨hfound, rfl⟩, h⟩ := h
  cases found with
  | none => exact absurd h (by simp)
  | some pack =>
    obtain ⟨rfl, rfl⟩ := Action.pure_eq_ok.1 h
    exact ⟨rfl, hfound⟩

theorem Sound.upsertPack (hs : s.Sound) {p : NewPack} {r : Pack}
    (h : Store.upsertPack p s = .ok (r, s')) : s'.Sound := by
  obtain ⟨rfl, -⟩ := upsertPack_ok h
  unfold NewPack.into
  by_cases hc : s.packs.rows.any fun row => row.code == p.code
  · rw [if_pos hc]
    have hid : ∀ a : PackRow, a.code == p.code → (p.row a.id).id = a.id := fun _ _ => rfl
    exact { hs with
      packs := (hs.packs.change hid).skip
      packCodes := hs.packCodes.change fun a ha => (beq_iff_eq.1 ha).symm
      documentPacks := hs.documentPacks.change_right hid }
  · rw [if_neg hc]
    simp only [List.any_eq_true, beq_iff_eq, not_exists, not_and] at hc
    exact { hs with
      packs := hs.packs.push p.row rfl
      packCodes := hs.packCodes.push p.row hc
      documentPacks := hs.documentPacks.push_right _ }

/-! ## Documents -/

theorem NewDocument.matches_iff {d : NewDocument} {row : DocumentRow} :
    d.matches row = true ↔ row.key = (d.pack, d.type, d.variant) := by
  simp [NewDocument.matches, DocumentRow.key, and_assoc]

/-- The row of a document that is added. -/
def NewDocument.row (d : NewDocument) (id : Id) : DocumentRow :=
  ⟨id, d.pack, d.type, d.variant, d.sequence, d.enabled, none⟩

/-- The row of a document that is changed. -/
def NewDocument.onto (d : NewDocument) (row : DocumentRow) : DocumentRow :=
  { row with sequence := d.sequence, enabled := d.enabled }

theorem document?_id {id : Id} {d : Document} (h : s.document? id = some d) : d.id = id := by
  obtain ⟨row, hrow, h⟩ := Option.bind_eq_some_iff.1 h
  obtain ⟨p, -, rfl⟩ := Option.map_eq_some_iff.1 h
  have := List.find?_some hrow
  exact beq_iff_eq.1 this

/-- A document that is there is changed, another one is added. -/
theorem upsertDocument_ok {d : NewDocument} {r : Document} (h : upsertDocument d s = .ok (r, s')) :
    s'.document? r.id = some r ∧
      ((∃ row ∈ s.documents.rows, row.key = (d.pack, d.type, d.variant) ∧ r.id = row.id ∧
          s' = { s with documents := (s.documents.change d.matches d.onto).skip }) ∨
        (∀ row ∈ s.documents.rows, row.key ≠ (d.pack, d.type, d.variant)) ∧
          (∃ p ∈ s.packs.rows, p.id = d.pack) ∧ r.id = s.documents.next ∧
          s' = { s with documents := s.documents.push d.row }) := by
  simp only [upsertDocument, Action.get_bind_eq_ok] at h
  cases hrow : s.documents.rows.find? d.matches with
  | some row =>
    simp only [hrow, Action.set_bind_eq_ok] at h
    generalize hfound : Store.document? _ row.id = found at h
    cases found with
    | none => exact absurd h (by simp)
    | some found =>
      obtain ⟨rfl, rfl⟩ := Action.pure_eq_ok.1 h
      have hid := document?_id hfound
      refine ⟨by rw [hid]; exact hfound, Or.inl ⟨row, List.mem_of_find?_eq_some hrow, ?_, hid, rfl⟩⟩
      exact NewDocument.matches_iff.1 (List.find?_some hrow)
  | none =>
    have hnew : ∀ row ∈ s.documents.rows, row.key ≠ (d.pack, d.type, d.variant) := fun row hmem e =>
      List.find?_eq_none.1 hrow row hmem (NewDocument.matches_iff.2 e)
    simp only [hrow, Action.ite_eq_ok, Action.set_bind_eq_ok] at h
    simp only [Action.bind_eq_ok, Action.throw_eq_ok, exists_false, false_and, and_false,
      false_or] at h
    obtain ⟨hpack, h⟩ := h
    generalize hfound : Store.document? _ s.documents.next = found at h
    cases found with
    | none => exact absurd h (by simp)
    | some found =>
      obtain ⟨rfl, rfl⟩ := Action.pure_eq_ok.1 h
      have hid := document?_id hfound
      exact ⟨by rw [hid]; exact hfound, Or.inr ⟨hnew, by simpa using hpack, hid, rfl⟩⟩

theorem Sound.changeDocuments (hs : s.Sound) (d : NewDocument) :
    { s with documents := (s.documents.change d.matches d.onto).skip }.Sound :=
  have hid : ∀ a : DocumentRow, d.matches a → (d.onto a).id = a.id := fun _ _ => rfl
  { hs with
    documents := (hs.documents.change hid).skip
    documentKeys := hs.documentKeys.change fun _ _ => rfl
    documentPacks := hs.documentPacks.change fun _ _ => rfl
    ruleDocuments := hs.ruleDocuments.change_right hid
    versionDocuments := hs.versionDocuments.change_right hid }

theorem Sound.pushDocument (hs : s.Sound) {d : NewDocument}
    (hnew : ∀ row ∈ s.documents.rows, row.key ≠ (d.pack, d.type, d.variant))
    (hpack : ∃ p ∈ s.packs.rows, p.id = d.pack) :
    { s with documents := s.documents.push d.row }.Sound :=
  { hs with
    documents := hs.documents.push d.row rfl
    documentKeys := hs.documentKeys.push d.row hnew
    documentPacks := hs.documentPacks.push d.row hpack
    ruleDocuments := hs.ruleDocuments.push_right _
    versionDocuments := hs.versionDocuments.push_right _ }

theorem Sound.upsertDocument (hs : s.Sound) {d : NewDocument} {r : Document}
    (h : Store.upsertDocument d s = .ok (r, s')) : s'.Sound := by
  obtain ⟨-, ⟨row, -, -, -, rfl⟩ | ⟨hnew, hpack, -, rfl⟩⟩ := upsertDocument_ok h
  · exact hs.changeDocuments d
  · exact hs.pushDocument hnew hpack

theorem changeDocument_eq_ok {id : Id} {f : DocumentRow → DocumentRow} {u : Unit} :
    changeDocument id f s = .ok (u, s') ↔ (∃ row ∈ s.documents.rows, row.id = id) ∧
      s' = { s with documents := s.documents.change (fun row => row.id == id) f } := by
  simp [changeDocument]

theorem Sound.changeDocument (hs : s.Sound) {id : Id} {f : DocumentRow → DocumentRow} {u : Unit}
    (h : Store.changeDocument id f s = .ok (u, s')) (hid : ∀ row, (f row).id = row.id)
    (hkey : ∀ row, (f row).key = row.key) : s'.Sound := by
  obtain ⟨-, rfl⟩ := changeDocument_eq_ok.1 h
  have hid' : ∀ row : DocumentRow, row.id == id → (f row).id = row.id := fun row _ => hid row
  exact { hs with
    documents := hs.documents.change hid'
    documentKeys := hs.documentKeys.change fun row _ => hkey row
    documentPacks := hs.documentPacks.change fun row _ => congrArg Prod.fst (hkey row)
    ruleDocuments := hs.ruleDocuments.change_right hid'
    versionDocuments := hs.versionDocuments.change_right hid' }

/-! ## Rules -/

theorem insertRule_eq_ok {d i : Id} {r : Rule} :
    insertRule d r s = .ok (i, s') ↔
      (∀ row ∈ s.rules.rows, row.key ≠ (d, r.worksheet, r.cell)) ∧
        (∃ row ∈ s.documents.rows, row.id = d) ∧ i = s.rules.next ∧
        s' = { s with rules := s.rules.push fun id => ⟨id, d, r⟩ } := by
  unfold insertRule
  rw [Action.get_bind_eq_ok]
  dsimp only
  rw [Action.guard_eq_ok, Action.guard_eq_ok, Action.set_bind_eq_ok, Action.pure_eq_ok]
  simp [RuleRow.key, and_assoc]

theorem Sound.insertRule (hs : s.Sound) {d i : Id} {r : Rule}
    (h : Store.insertRule d r s = .ok (i, s')) : s'.Sound := by
  obtain ⟨hnew, hdoc, -, rfl⟩ := insertRule_eq_ok.1 h
  exact { hs with
    rules := hs.rules.push (fun id => ⟨id, d, r⟩) rfl
    ruleKeys := hs.ruleKeys.push _ hnew
    ruleDocuments := hs.ruleDocuments.push _ hdoc }

theorem deleteRules_eq_ok {d : Id} {n : Nat} :
    deleteRules d s = .ok (n, s') ↔
      n = (s.rules.rows.filter fun row => row.document == d).length ∧
        s' = { s with rules := s.rules.erase fun row => row.document == d } := by
  simp [deleteRules, and_comm]

theorem Sound.deleteRules (hs : s.Sound) {d : Id} {n : Nat}
    (h : Store.deleteRules d s = .ok (n, s')) : s'.Sound := by
  obtain ⟨-, rfl⟩ := deleteRules_eq_ok.1 h
  exact { hs with
    rules := hs.rules.erase _
    ruleKeys := hs.ruleKeys.erase _
    ruleDocuments := hs.ruleDocuments.erase _ }

/-! ## Versions -/

/-- The store with one more version. -/
def recorded (s : Store) (v : Version) : Store :=
  { s with versions := s.versions.push fun id => { v with id }.row }

theorem readVersion_row (v : Version) :
    readVersion v.row = .ok { v with template := TemplateFile.present? v.template } := rfl

/-- Only a row of the version itself is read as a version. -/
theorem readVersion_eq_ok {row : VersionRow} {v : Version} :
    readVersion row = .ok v ↔
      ∃ t, row = { v with template := t }.row ∧ v.template = TemplateFile.present? t := by
  constructor
  · intro h
    obtain ⟨id, document, number, template, snapshot, change, note, createdBy, createdAt⟩ := row
    cases change with
    | unknown word => cases h
    | known change =>
      cases snapshot with
      | unreadable => cases h
      | rules rules =>
        cases h
        exact ⟨template, rfl, rfl⟩
  · rintro ⟨t, rfl, ht⟩
    rw [readVersion_row, ← ht]

theorem version?_eq_some {id : Id} {v : Version} :
    s.version? id = .ok (some v) ↔
      ∃ row, (s.versions.rows.find? fun row => row.id == id) = some row ∧
        readVersion row = .ok v := by
  unfold version?
  cases s.versions.rows.find? fun row => row.id == id with
  | none => simp [Option.mapM, pure, Except.pure]
  | some row =>
    cases h : readVersion row <;> simp [h, Option.mapM, Functor.map, Except.map]

/-- A row that is there is read by its number. -/
theorem Sound.version?_eq (hs : s.Sound) {row : VersionRow} (hrow : row ∈ s.versions.rows) :
    s.version? row.id = (readVersion row).map some := by
  unfold version?
  rw [hs.versions.find?_eq hrow]
  rfl

theorem insertVersion_eq_ok (hs : s.versions.Numbered VersionRow.id) {v r : Version} :
    insertVersion v s = .ok (r, s') ↔ (∃ row ∈ s.documents.rows, row.id = v.document) ∧
      r = { v with id := s.versions.next, template := TemplateFile.present? v.template } ∧
        s' = s.recorded v := by
  have hread : (s.recorded v).version? s.versions.next =
      .ok (some
        { v with id := s.versions.next, template := TemplateFile.present? v.template }) := by
    have := hs.find?_push (fun id => { v with id }.row) rfl
    simp only [version?, recorded, this]
    rfl
  simp only [recorded, Version.row] at hread ⊢
  simp only [insertVersion, Action.get_bind_eq_ok, Action.ite_eq_ok, Action.set_bind_eq_ok,
    Action.lift_bind_eq_ok, hread]
  simp

theorem Sound.recorded (hs : s.Sound) {v : Version}
    (hd : ∃ row ∈ s.documents.rows, row.id = v.document)
    (hn : ∀ row ∈ s.versions.rows, row.document = v.document → row.number ≠ v.number) :
    (s.recorded v).Sound :=
  { hs with
    versions := hs.versions.push (fun id => Version.row { v with id }) rfl
    versionKeys := hs.versionKeys.push _ fun row hrow e =>
      hn row hrow (congrArg Prod.fst e) (congrArg Prod.snd e)
    versionDocuments := hs.versionDocuments.push _ hd }

/-! ## Artifacts -/

/-- The artifact that is added. -/
def NewArtifact.artifact (a : NewArtifact) (id : Id) : Artifact :=
  { id, packCode := a.packCode, shipment := a.shipment, carton := a.carton,
    status := .generated, pdfName := none, pdf := none, checksum := "", createdBy := a.createdBy,
    createdAt := a.createdAt, remotePath := "", attempts := 0, lastError := "" }

/-- A row that is there is read by its number. -/
theorem artifact_eq (hs : s.artifacts.Numbered fun row => row.artifact.id) {row : ArtifactRow}
    (hrow : row ∈ s.artifacts.rows) : s.artifact row.artifact.id = readArtifact row := by
  unfold artifact artifact?
  rw [hs.find?_eq hrow]
  cases h : readArtifact row <;> simp [h, Option.mapM, bind, Except.bind, pure, Except.pure]

theorem Sound.pushArtifact (hs : s.Sound) (a : NewArtifact) :
    { s with artifacts := s.artifacts.push fun id => ⟨a.artifact id, none⟩ }.Sound :=
  { hs with
    artifacts := hs.artifacts.push (fun id => ⟨a.artifact id, none⟩) rfl
    itemArtifacts := hs.itemArtifacts.push_right _ }

theorem insertArtifact_eq_ok (hs : s.Sound) {a : NewArtifact} {r : Artifact} :
    insertArtifact a s = .ok (r, s') ↔ r = a.artifact s.artifacts.next ∧
      s' = { s with artifacts := s.artifacts.push fun id => ⟨a.artifact id, none⟩ } := by
  have hread := artifact_eq (hs.pushArtifact a).artifacts (mem_push.2 (Or.inr rfl))
  simp only [NewArtifact.artifact, readArtifact] at hread ⊢
  simp only [insertArtifact, Action.get_bind_eq_ok, Action.set_bind_eq_ok, Action.lift_eq_ok, hread,
    Except.ok.injEq]
  rw [eq_comm (a := r)]

/-- The store with the artifact of a number changed. -/
theorem Sound.changeArtifact (hs : s.Sound) (id : Id) {f : Artifact → Artifact}
    (hf : ∀ a, (f a).id = a.id) : (s.changeArtifact id f).Sound :=
  { hs with
    artifacts := hs.artifacts.change fun _ _ => hf _
    itemArtifacts := hs.itemArtifacts.change_right fun _ _ => hf _ }

theorem finalize_eq_ok {id : Id} {pdfName checksum : String} {pdf : ByteArray} {r : Artifact} :
    finalize id pdfName pdf checksum s = .ok (r, s') ↔
      s' = s.changeArtifact id (fun a =>
        { a with pdfName := some pdfName, pdf := some pdf, checksum, status := .syncPending }) ∧
      s'.artifact id = .ok r := by
  simp only [finalize, Action.bind_eq_ok, Action.modify_eq_ok, Action.get_eq_ok, Action.lift_eq_ok]
  constructor
  · rintro ⟨_, _, rfl, _, _, ⟨rfl, rfl⟩, h, rfl⟩; exact ⟨rfl, h⟩
  · rintro ⟨rfl, h⟩; exact ⟨(), _, rfl, _, _, ⟨rfl, rfl⟩, h, rfl⟩

/-! ## Items -/

theorem insertItem_eq_ok {item : ArtifactItem} {i : Id} :
    insertItem item s = .ok (i, s') ↔ (∃ row ∈ s.artifacts.rows, row.artifact.id = item.artifact) ∧
      i = s.items.next ∧ s' = { s with items := s.items.push fun id => { item with id } } := by
  unfold insertItem
  rw [Action.get_bind_eq_ok]
  dsimp only
  rw [Action.guard_eq_ok, Action.set_bind_eq_ok, Action.pure_eq_ok]
  simp only [Bool.not_eq_true', Bool.not_eq_false, List.any_eq_true, beq_iff_eq]

theorem Sound.insertItem (hs : s.Sound) {item : ArtifactItem} {i : Id}
    (h : Store.insertItem item s = .ok (i, s')) : s'.Sound := by
  obtain ⟨ha, -, rfl⟩ := insertItem_eq_ok.1 h
  exact { hs with
    items := hs.items.push (fun id => { item with id }) rfl
    itemArtifacts := hs.itemArtifacts.push _ ha }

end Store

end Waybill
