/-
  A catalog that is imported again.

  * `Store.SameRows`: every row is as it was, though numbers may have been used up.

  Statements: `Imported.self` (a store that an import leaves is as the same import would leave it),
  `importDocument_again` and `importPack_again` (importing what is already there), and
  `reimport_changes_nothing`.
-/
import Waybill.Proofs.Catalog.Match

namespace Waybill

open Waybill.Mapping Waybill.History Waybill.Store Waybill.Catalog Waybill.Table

/-! ## The same rows -/

namespace Store

/-- Every row is as it was; numbers of packs and documents may have been used up. -/
structure SameRows (s s' : Store) : Prop where
  packs : s'.packs.rows = s.packs.rows
  documents : s'.documents.rows = s.documents.rows
  rules : s'.rules = s.rules
  versions : s'.versions = s.versions
  artifacts : s'.artifacts = s.artifacts
  items : s'.items = s.items

namespace SameRows

variable {s s₁ s' : Store}

theorem refl (s : Store) : SameRows s s := ⟨rfl, rfl, rfl, rfl, rfl, rfl⟩

theorem trans (h : SameRows s s₁) (h' : SameRows s₁ s') : SameRows s s' where
  packs := h'.packs.trans h.packs
  documents := h'.documents.trans h.documents
  rules := h'.rules.trans h.rules
  versions := h'.versions.trans h.versions
  artifacts := h'.artifacts.trans h.artifacts
  items := h'.items.trans h.items

theorem packAt (h : SameRows s s') (code : String) : s'.packAt code = s.packAt code := by
  unfold Store.packAt
  rw [h.packs]

theorem entryAt (h : SameRows s s') (k : Id × String × String) :
    s'.entryAt k = s.entryAt k := by
  have hentry : s'.entryOf = s.entryOf := by
    funext row
    simp only [entryOf, ruleRows, versionRows, h.rules, h.versions]
  unfold Store.entryAt row?
  rw [hentry, h.documents]

theorem document? (h : SameRows s s') (id : Id) : s'.document? id = s.document? id := by
  have hread : s'.readDocument? = s.readDocument? := by
    funext row
    unfold readDocument?
    rw [h.packs]
  unfold Store.document?
  rw [hread, h.documents]

end SameRows

/-! ## Actions that find what they would make -/

variable {s : Store}

/-- A change that leaves each row it is about as it is leaves the rows. -/
theorem rows_change_of_forall {α : Type} {t : Table α} {which : α → Bool} {f : α → α}
    (h : ∀ a ∈ t.rows, which a → f a = a) : (t.change which f).rows = t.rows := by
  unfold Table.change
  refine (List.map_congr_left fun a ha => ?_).trans (List.map_id _)
  split
  · next hw => exact h a ha hw
  · rfl

/-- A pack that is there as wanted stays as it is. -/
theorem upsertPack_of_packAt (hs : s.Sound) {p : NewPack} {id : Id}
    (hat : s.packAt p.code = some (p.row id)) :
    ∃ pack s', upsertPack p s = .ok (pack, s') ∧ SameRows s s' ∧ pack.id = id := by
  obtain ⟨hmem, -⟩ := mem_of_packAt hat
  have hany : s.packs.rows.any (fun row => row.code == p.code) = true :=
    List.any_eq_true.2 ⟨_, hmem, beq_self_eq_true _⟩
  have hrows : (p.into s.packs).rows = s.packs.rows := by
    unfold NewPack.into
    rw [if_pos hany]
    refine rows_change_of_forall fun row hrow hcode => ?_
    rw [hs.packCodes.eq_of_key_eq hrow hmem (beq_iff_eq.1 hcode)]
    rfl
  have hsame : SameRows s { s with packs := p.into s.packs } := ⟨hrows, rfl, rfl, rfl, rfl, rfl⟩
  have hread : packByCode? { s with packs := p.into s.packs } p.code =
      .ok (some ⟨id, p.code, p.name, p.active, p.defaultFormat, p.fallbackFormat⟩) := by
    change (packAt { s with packs := p.into s.packs } p.code).mapM readPack = _
    rw [hsame.packAt, hat, Option.mapM_some, readPack_row]
    rfl
  refine ⟨⟨id, p.code, p.name, p.active, p.defaultFormat, p.fallbackFormat⟩, _, ?_, hsame, rfl⟩
  unfold upsertPack
  rw [Action.get_bind_eq_ok, Action.set_bind_eq_ok, Action.lift_bind_eq_ok]
  exact ⟨_, hread, Action.pure_eq_ok.2 ⟨rfl, rfl⟩⟩

/-- A document that is there as wanted stays as it is. -/
theorem upsertDocument_of_entryAt (hs : s.Sound) {d : NewDocument} {e : Entry}
    (he : s.entryAt d.key = some e) (hsequence : e.row.sequence = d.sequence)
    (henabled : e.row.enabled = d.enabled) :
    ∃ live s', upsertDocument d s = .ok (live, s') ∧ SameRows s s' ∧ live.id = e.row.id ∧
      live.template = e.template := by
  obtain ⟨hmem, hkey, -⟩ := row_of_entryAt he
  have hfind : s.documents.rows.find? d.matches = some e.row := by
    have hmatches : d.matches = fun row => decide (row.key = d.key) := by
      funext row
      exact Bool.eq_iff_iff.2 (NewDocument.matches_iff.trans decide_eq_true_iff.symm)
    rw [hmatches, ← hkey]
    exact hs.documentKeys.find?_eq hmem
  have hrows : (s.documents.change d.matches d.onto).rows = s.documents.rows := by
    refine rows_change_of_forall fun row hrow hmatches => ?_
    have hrowkey : row.key = e.row.key := (NewDocument.matches_iff.1 hmatches).trans hkey.symm
    obtain rfl := hs.documentKeys.eq_of_key_eq hrow hmem hrowkey
    unfold NewDocument.onto
    rw [← hsequence, ← henabled]
  have hsame : SameRows s { s with documents := (s.documents.change d.matches d.onto).skip } :=
    ⟨rfl, hrows, rfl, rfl, rfl, rfl⟩
  obtain ⟨live, hread⟩ := readDocument?_eq hs hmem
  have hlive : s.document? e.row.id = some live := by
    rw [document?, hs.documents.find?_eq hmem]
    exact hread
  obtain ⟨hid, -, htemplate⟩ := of_readDocument? hread
  refine ⟨live, _, ?_, hsame, hid, htemplate⟩
  unfold upsertDocument
  rw [Action.get_bind_eq_ok]
  dsimp only
  rw [hfind]
  refine Action.set_bind_eq_ok.2 ?_
  have hfound := (hsame.document? e.row.id).trans hlive
  generalize hread' : Store.document? _ e.row.id = found
  obtain rfl : some live = found := hfound.symm.trans hread'
  exact Action.pure_eq_ok.2 ⟨rfl, rfl⟩

/-- Nothing is disabled when every enabled document of the pack is listed. -/
theorem disableUnlisted_of_listed {pack : Id} {listed : List Id}
    (h : ∀ row ∈ s.documents.rows, row.pack = pack → row.enabled = true → row.id ∈ listed) :
    disableUnlisted pack listed s = .ok (0, s) := by
  have hnone :
      ((s.packDocuments pack).filter fun d => d.enabled && !listed.contains d.id) = [] := by
    rw [List.filter_eq_nil_iff]
    intro d hd
    obtain ⟨row, hrow, hpack, hread⟩ := mem_packDocuments.1 hd
    obtain ⟨hid, henabled, -⟩ := of_readDocument? hread
    simp only [Bool.and_eq_true, Bool.not_eq_true', List.contains_eq_mem, decide_eq_false_iff_not,
      not_and, not_not, hid, henabled]
    exact h row hrow hpack
  rw [disableUnlisted, Action.get_bind_eq_ok, hnone]
  rfl

end Store

/-! ## Reports -/

/-- The report when packs and documents were found as they should be. -/
def ImportReport.found (report : ImportReport) (packs documents : Nat) : ImportReport :=
  { report with
    packs := report.packs + packs
    documents := report.documents + documents
    unchanged := report.unchanged + documents }

theorem ImportReport.found_found (report : ImportReport) (packs documents packs' documents' : Nat) :
    (report.found packs documents).found packs' documents' =
      report.found (packs + packs') (documents + documents') := by
  simp [found, Nat.add_assoc]

theorem ImportReport.found_empty (packs documents : Nat) :
    ImportReport.empty.found packs documents = ⟨packs, documents, 0, documents, 0⟩ := by
  simp [found, ImportReport.empty]

namespace Catalog

variable {setting : Setting} {s s' : Store}

/-! ## A store that is as the catalog says -/

theorem Described.self {d : DocumentEntry} {before : Option Entry} {e : Entry}
    (h : Described setting d before e) : Described setting d (some e) e where
  number _ he := Option.some.inj he ▸ rfl
  sequence := h.sequence
  enabled := h.enabled
  rules := h.rules
  template := by
    obtain ⟨named, hnamed, htemplate⟩ := h.template
    refine ⟨named, hnamed, ?_⟩
    cases named with
    | none => rfl
    | some file => exact htemplate
  versions := h.versions

theorem PackMatches.self {p : PackEntry} {id : Id} (h : PackMatches setting p id s s') :
    PackMatches setting p id s' s' where
  pack := h.pack
  number row hrow := by
    obtain rfl : p.wanted.row id = row := Option.some.inj (h.pack.symm.trans hrow)
    rfl
  listed d hd := by
    obtain ⟨e, he, hdescribed⟩ := h.listed d hd
    exact ⟨e, he, he ▸ hdescribed.self⟩
  dropped type variant hlabel := by
    rw [h.dropped type variant hlabel, Option.map_map]
    rfl

/-- **What an import leaves is as the same import would leave it.** -/
theorem Imported.self {ps : List PackEntry} (h : Imported setting ps s s') :
    Imported setting ps s' s' where
  packs p hp := by
    obtain ⟨id, hmatches⟩ := h.packs p hp
    exact ⟨id, hmatches.self⟩
  otherPacks _ _ := rfl
  otherDocuments _ _ := rfl

theorem PackMatches.of_sameRows {p : PackEntry} {id : Id} (h : PackMatches setting p id s s)
    (hsame : SameRows s s') : PackMatches setting p id s' s' :=
  h.congr (hsame.packAt _) (hsame.packAt _) (fun k _ => hsame.entryAt k) fun k _ => hsame.entryAt k

/-! ## Importing it again -/

variable (signature : Signature)

/-- A document that is as the catalog says gets no new version. -/
theorem importDocument_again (hs : s.Recorded) {pack : Id} {d : DocumentEntry} {e : Entry}
    (he : s.entryAt (d.wanted pack).key = some e) (h : Described setting d (some e) e) :
    ∃ s', importDocument { setting with signature } pack d s = (.ok (e.row.id, false), s') ∧
      s'.Recorded ∧ SameRows s s' := by
  obtain ⟨live, s', hupsert, hsame, hid, hlive⟩ :=
    upsertDocument_of_entryAt hs.sound he h.sequence h.enabled
  have hs' := hs.quiet (quiet_upsertDocument _ _ _ _ hupsert)
  obtain ⟨named, hnamed, htemplate⟩ := h.template
  have hentry : e = s'.entryOf e.row := (row_of_entryAt ((hsame.entryAt _).trans he)).2.2
  have hsame' : differs s' live named d.rules = false := by
    refine differs_eq_false.2 ⟨fun file hfile => ?_, fun hnumber => ?_, ?_⟩
    · rw [hlive, htemplate, hfile]
      rfl
    · rw [hid] at hnumber
      have hnext := hs'.nextNumber e.row.id
      have hlength : (s'.versionRows e.row.id).length = 0 := by omega
      refine h.versions ?_
      rw [hentry]
      exact List.length_eq_zero_iff.1 hlength
    · rw [hid]
      have hrules := h.rules
      rw [hentry] at hrules
      exact hrules
  refine ⟨s', importDocument_eq_ok.2 ⟨named, live, s', hnamed, hupsert, ?_, ?_⟩,
    hs', hsame⟩
  · rw [hsame', hid]
  · rw [hsame']
    rfl

/-- Documents that are as the catalog says get no new version, and their numbers are given back. -/
theorem importDocuments_again (hs : s.Recorded) {pack : Id} {ds : List DocumentEntry}
    (h : ∀ d ∈ ds, ∃ e, s.entryAt (d.wanted pack).key = some e ∧
      Described setting d (s.entryAt (d.wanted pack).key) e) (report : ImportReport) :
    ∃ ids s', importDocuments { setting with signature } pack ds report s =
        (.ok (ids, report.found 0 ds.length), s') ∧
      s'.Recorded ∧ SameRows s s' ∧
      ∀ d ∈ ds, ∀ e, s.entryAt (d.wanted pack).key = some e → e.row.id ∈ ids := by
  induction ds generalizing s report with
  | nil => exact ⟨[], s, rfl, hs, .refl s, by simp⟩
  | cons d ds ih =>
    obtain ⟨⟨e, he, hdescribed⟩, hrest⟩ := List.forall_mem_cons.1 h
    rw [he] at hdescribed
    obtain ⟨s₁, hd, hs₁, hsame₁⟩ := importDocument_again signature hs he hdescribed
    have hrest₁ : ∀ d ∈ ds, ∃ e, s₁.entryAt (d.wanted pack).key = some e ∧
        Described setting d (s₁.entryAt (d.wanted pack).key) e := fun d' hd' => by
      rw [hsame₁.entryAt]
      exact hrest d' hd'
    obtain ⟨ids, s', hds, hs', hsame, hids⟩ := ih hs₁ hrest₁ (report.found 0 1)
    refine ⟨e.row.id :: ids, s', importDocuments_cons_eq_ok.2 ⟨_, _, s₁, ids, hd, ?_, rfl⟩, hs',
      hsame₁.trans hsame, List.forall_mem_cons.2 ⟨fun e' he' => ?_, fun d' hd' e' he' => ?_⟩⟩
    · rw [ImportReport.found_found, Nat.add_comm 1] at hds
      exact hds
    · obtain rfl : e = e' := Option.some.inj (he.symm.trans he')
      exact List.mem_cons_self
    · exact List.mem_cons_of_mem _ (hids d' hd' e' ((hsame₁.entryAt _).trans he'))

/-- Of a pack that matches, every document that is enabled is listed. -/
theorem PackMatches.label_mem {p : PackEntry} {id : Id} (h : PackMatches setting p id s s)
    (hs : s.Sound) {row : DocumentRow} (hrow : row ∈ s.documents.rows) (hpack : row.pack = id)
    (henabled : row.enabled = true) : ∃ d ∈ p.documents, (d.wanted id).key = row.key := by
  have hentry := hs.entryAt_eq hrow
  by_cases hlabel : (row.type, row.variant) ∈ p.documents.map DocumentEntry.label
  · obtain ⟨d, hd, hlabel⟩ := List.mem_map.1 hlabel
    refine ⟨d, hd, ?_⟩
    rw [key_wanted, hlabel, ← hpack]
    rfl
  · have hdropped := h.dropped row.type row.variant hlabel
    rw [← hpack] at hdropped
    rw [show s.entryAt (row.pack, row.type, row.variant) = _ from hentry] at hdropped
    have hrow : row = { row with enabled := false } :=
      congrArg Entry.row (Option.some.inj hdropped)
    rw [hrow] at henabled
    cases henabled

/-- A pack that is as the catalog says stays as it is. -/
theorem importPack_again (hs : s.Recorded) {p : PackEntry} {id : Id}
    (hcode : (Text.trim p.code).isEmpty = false) (h : PackMatches setting p id s s)
    (report : ImportReport) :
    ∃ s', importPack { setting with signature } p report s =
        (.ok (report.found 1 p.documents.length), s') ∧
      s'.Recorded ∧ SameRows s s' := by
  obtain ⟨pack, s₁, hpack, hsame₁, rfl⟩ := upsertPack_of_packAt hs.sound (p := p.wanted) h.pack
  have hs₁ := hs.quiet (quiet_upsertPack _ _ _ _ hpack)
  have h₁ := h.of_sameRows hsame₁
  obtain ⟨listed, s₂, hdocuments, hs₂, hsame₂, hids⟩ :=
    importDocuments_again signature hs₁ h₁.listed { report with packs := report.packs + 1 }
  have hdisabled : disableUnlisted pack.id listed s₂ = .ok (0, s₂) := by
    refine disableUnlisted_of_listed fun row hrow hrowpack henabled => ?_
    obtain ⟨d, hd, hkey⟩ := (h₁.of_sameRows hsame₂).label_mem hs₂.sound hrow hrowpack henabled
    refine hids d hd (s₂.entryOf row) ?_
    rw [← hsame₂.entryAt, hkey]
    exact hs₂.sound.entryAt_eq hrow
  exact ⟨s₂, importPack_eq_ok.2 ⟨hcode, pack, s₁, listed, _, s₂, 0, hpack, hdocuments, hdisabled,
    rfl⟩, hs₂, hsame₁.trans hsame₂⟩

/-- **Packs that are as the catalog says stay as they are.** -/
theorem importPacks_again (hs : s.Recorded) {ps : List PackEntry}
    (hcodes : ∀ p ∈ ps, (Text.trim p.code).isEmpty = false)
    (h : ∀ p ∈ ps, ∃ id, PackMatches setting p id s s) (report : ImportReport) :
    ∃ s', importPacks { setting with signature } ps report s =
        (.ok (report.found ps.length (ps.flatMap (·.documents)).length), s') ∧
      SameRows s s' := by
  induction ps generalizing s report with
  | nil => exact ⟨s, rfl, .refl s⟩
  | cons p ps ih =>
    obtain ⟨hcode, hcodes⟩ := List.forall_mem_cons.1 hcodes
    obtain ⟨⟨id, hmatches⟩, hrest⟩ := List.forall_mem_cons.1 h
    obtain ⟨s₁, hp, hs₁, hsame₁⟩ := importPack_again signature hs hcode hmatches report
    have hrest₁ : ∀ p ∈ ps, ∃ id, PackMatches setting p id s₁ s₁ := fun q hq =>
      (hrest q hq).imp fun _ h => h.of_sameRows hsame₁
    obtain ⟨s', hps, hsame⟩ := ih hs₁ hcodes hrest₁ (report.found 1 p.documents.length)
    refine ⟨s', importPacks_cons_eq_ok.2 ⟨_, s₁, hp, ?_⟩, hsame₁.trans hsame⟩
    rw [ImportReport.found_found, Nat.add_comm 1] at hps
    rw [List.length_cons, List.flatMap_cons, List.length_append]
    exact hps

/-- No pack of a catalog that was imported has an empty code. -/
theorem codes_of_importPacks {ps : List PackEntry} {report report' : ImportReport}
    (h : importPacks setting ps report s = (.ok report', s')) :
    ∀ p ∈ ps, (Text.trim p.code).isEmpty = false := by
  induction ps generalizing s report with
  | nil => simp
  | cons p ps ih =>
    obtain ⟨between, s₁, hp, hps⟩ := importPacks_cons_eq_ok.1 h
    exact List.forall_mem_cons.2 ⟨(importPack_eq_ok.1 hp).1, ih hps⟩

/-- **Importing a catalog once more changes nothing.**  It is said of every store that operations
    lead to; the files are the same, and whoever signs the second import does not matter. -/
theorem reimport_changes_nothing (ops : List Operation) (setting : Setting) (catalog : Catalog)
    (signature : Signature) {report : ImportReport} {s' : Store}
    (hcodes : (catalog.packs.map (Text.trim ·.code)).Nodup)
    (hlabels : ∀ p ∈ catalog.packs, (p.documents.map DocumentEntry.label).Nodup)
    (hfiles : ∀ p ∈ catalog.packs, setting.Filled p.documents)
    (himport : importCatalog setting catalog (Generation.World.start.runAll ops).store =
      (.ok report, s')) :
    let n := (catalog.packs.flatMap (·.documents)).length
    ∃ report' s'', importCatalog { setting with signature } catalog s' = (.ok report', s'') ∧
      report' = {
        packs := catalog.packs.length
        documents := n
        versions := 0
        unchanged := n
        disabled := 0 } ∧
      SameRows s' s'' := by
  have hs := recorded_runAll ops
  generalize (Generation.World.start.runAll ops).store = s at hs himport ⊢
  have hs' : s'.Recorded := by
    have hadvances := advances_importCatalog setting catalog s hs
    rw [himport] at hadvances
    exact hadvances.1
  obtain ⟨-, himported⟩ := importPacks_ok hs.sound hcodes hlabels hfiles himport
  obtain ⟨s'', hagain, hsame⟩ := importPacks_again signature hs' (codes_of_importPacks himport)
    himported.self.packs .empty
  exact ⟨_, s'', hagain, ImportReport.found_empty _ _, hsame⟩

theorem sample_reimport : ∃ s' s'',
    importCatalog sampleSetting sampleCatalog (Generation.World.start.runAll sampleBefore).store =
      (.ok ⟨3, 2, 1, 1, 1⟩, s') ∧
    importCatalog { sampleSetting with signature := ⟨some "ben", .ofEpoch 60 0⟩ } sampleCatalog s' =
      (.ok ⟨3, 2, 0, 2, 0⟩, s'') ∧
    SameRows s' s'' := by
  have hresult : (importCatalog sampleSetting sampleCatalog
      (Generation.World.start.runAll sampleBefore).store).1 = .ok ⟨3, 2, 1, 1, 1⟩ := by
    decide +kernel
  cases himport : importCatalog sampleSetting sampleCatalog
    (Generation.World.start.runAll sampleBefore).store with
  | mk result s' =>
    rw [himport] at hresult
    obtain rfl : result = .ok ⟨3, 2, 1, 1, 1⟩ := hresult
    obtain ⟨report', s'', hagain, rfl, hsame⟩ := reimport_changes_nothing sampleBefore sampleSetting
      sampleCatalog ⟨some "ben", .ofEpoch 60 0⟩ (by decide +kernel) (by decide +kernel)
      (fun p _ => sampleSetting_filled p.documents) himport
    exact ⟨s', s'', rfl, hagain, hsame⟩

end Catalog

end Waybill
