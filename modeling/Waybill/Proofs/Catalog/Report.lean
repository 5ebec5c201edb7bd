/-
  What the report of an import says.

  * `OfImport` is a version as an import records it;
  * `Tallied` is what a part of an import adds to the counts and to the versions of the store;
  * `Drops`: a document is enabled, and its pack is listed without it;
  * `Reports` says what each count stands for.

  Statements: `tallied_importPacks` (the counts of packs, documents and versions),
  `disabled_importPacks` (the count of documents that are disabled), `versioned_importPacks` (every
  document that is listed has a version), and `report_is_true`.
-/
import Waybill.Proofs.Catalog.Steps

namespace Waybill.Catalog

open Waybill.History Waybill.Store Waybill.Table

variable {setting : Setting} {s s₁ s' : Store} {report between report' : ImportReport}

/-! ## Versions that are counted -/

/-- A version as an import records it for a user. -/
structure OfImport (user : Option String) (v : Version) : Prop where
  change : v.change = .save
  note : v.note = importNote
  createdBy : v.createdBy = user

/-- `m` packs and `n` documents were counted, each document with a new version or as unchanged, and
    the new versions were recorded. -/
structure Tallied (user : Option String) (m n : Nat) (report report' : ImportReport)
    (s s' : Store) : Prop where
  packs : report'.packs = report.packs + m
  documents : report'.documents = report.documents + n
  outcomes : report'.versions + report'.unchanged = report.versions + report.unchanged + n
  recorded : ∃ vs : List Version, s'.versions.rows = s.versions.rows ++ vs.map Version.row ∧
    report'.versions = report.versions + vs.length ∧ ∀ v ∈ vs, OfImport user v

theorem Tallied.same {user : Option String} (h : s'.versions = s.versions) (m : Nat) :
    Tallied user m 0 report { report with packs := report.packs + m } s s' :=
  ⟨rfl, rfl, rfl, [], by simp [h], rfl, by simp⟩

theorem Tallied.trans {user : Option String} {m n m' n' : Nat}
    (h : Tallied user m n report between s s₁) (h' : Tallied user m' n' between report' s₁ s') :
    Tallied user (m + m') (n + n') report report' s s' := by
  obtain ⟨vs, hrows, hcount, hvs⟩ := h.recorded
  obtain ⟨vs', hrows', hcount', hvs'⟩ := h'.recorded
  constructor
  case packs => rw [h'.packs, h.packs, Nat.add_assoc]
  case documents => rw [h'.documents, h.documents, Nat.add_assoc]
  case outcomes =>
    rw [h'.outcomes, h.outcomes]
    omega
  case recorded =>
    refine ⟨vs ++ vs', ?_, ?_, List.forall_mem_append.2 ⟨hvs, hvs'⟩⟩
    · rw [hrows', hrows, List.map_append, List.append_assoc]
    · rw [hcount', hcount, List.length_append, Nat.add_assoc]

/-- Importing a document records one version or none. -/
theorem versions_importDocument (hs : s.Sound) {pack : Id} {d : DocumentEntry} {r : Id × Bool}
    (h : importDocument setting pack d s = (.ok r, s')) :
    ∃ vs : List Version, s'.versions.rows = s.versions.rows ++ vs.map Version.row ∧
      vs.length = (if r.2 then 1 else 0) ∧ ∀ v ∈ vs, OfImport setting.signature.user v := by
  obtain ⟨named, live, s₁, -, hupsert, rfl, hafter⟩ := importDocument_eq_ok.1 h
  have hversions : s₁.versions = s.versions := (quiet_upsertDocument _ _ _ _ hupsert).versions
  split at hafter
  · next hdiffers =>
    obtain ⟨v, hedit⟩ := hafter
    have hcommit := (saveEdit_eq_ok (hs.upsertDocument hupsert)).1 hedit
    obtain ⟨doc, -, hv⟩ := hcommit.eq_snapshot
    refine ⟨[v], ?_, by rw [hdiffers]; rfl, List.forall_mem_singleton.2 ?_⟩
    · rw [hcommit.versions, rows_push, hversions]
      rfl
    · rw [hv]
      exact ⟨rfl, trim_importNote, rfl⟩
  · next hsame =>
    obtain rfl := hafter
    rw [Bool.not_eq_true] at hsame
    exact ⟨[], by simp [hversions], by rw [hsame]; rfl, by simp⟩

theorem tallied_importDocuments (hs : s.Sound) {pack : Id} {ds : List DocumentEntry}
    {ids : List Id} (h : importDocuments setting pack ds report s = (.ok (ids, report'), s')) :
    Tallied setting.signature.user 0 ds.length report report' s s' ∧
      report'.disabled = report.disabled := by
  induction ds generalizing s report ids with
  | nil =>
    obtain ⟨hids, rfl⟩ := Run.pure_eq_ok.1 h
    obtain ⟨-, rfl⟩ := Prod.mk.injEq .. ▸ hids
    exact ⟨.same rfl 0, rfl⟩
  | cons d ds ih =>
    obtain ⟨id, recorded, s₁, ids, hd, hds, -⟩ := importDocuments_cons_eq_ok.1 h
    obtain ⟨vs, hrows, hlength, hvs⟩ := versions_importDocument hs hd
    obtain ⟨hrest, hdisabled⟩ := ih (importDocument_frame hs hd).sound hds
    have hfirst : Tallied setting.signature.user 0 1 report
        { report with
          documents := report.documents + 1
          versions := report.versions + (if recorded then 1 else 0)
          unchanged := report.unchanged + (if recorded then 0 else 1) } s s₁ := by
      refine ⟨rfl, rfl, ?_, vs, hrows, congrArg (report.versions + ·) hlength.symm, hvs⟩
      cases recorded
      · exact (Nat.add_assoc ..).symm
      · exact Nat.add_right_comm ..
    rw [List.length_cons, Nat.add_comm]
    exact ⟨hfirst.trans hrest, hdisabled⟩

theorem tallied_importPack (hs : s.Sound) {p : PackEntry}
    (h : importPack setting p report s = (.ok report', s')) :
    Tallied setting.signature.user 1 p.documents.length report report' s s' := by
  obtain ⟨-, pack, s₁, listed, between, s₂, n, hpack, hdocuments, hdropped, rfl⟩ :=
    importPack_eq_ok.1 h
  have hfirst : Tallied setting.signature.user 1 0 report _ s s₁ :=
    .same (quiet_upsertPack _ _ _ _ hpack).versions 1
  obtain ⟨hrest, -⟩ := tallied_importDocuments (hs.upsertPack hpack) hdocuments
  have hlast : s'.versions = s₂.versions :=
    (disableUnlisted_keeps quiet_setEnabled _ _ _ _ _ hdropped).versions
  have hall := hfirst.trans hrest
  rw [Nat.zero_add] at hall
  obtain ⟨vs, hrows, hcount, hvs⟩ := hall.recorded
  exact ⟨hall.packs, hall.documents, hall.outcomes, vs, hlast ▸ hrows, hcount, hvs⟩

/-- **The counts of packs, documents and versions.** -/
theorem tallied_importPacks (hs : s.Sound) {ps : List PackEntry}
    (h : importPacks setting ps report s = (.ok report', s')) :
    Tallied setting.signature.user ps.length (ps.flatMap (·.documents)).length report report'
      s s' := by
  induction ps generalizing s report with
  | nil =>
    obtain ⟨rfl, rfl⟩ := Run.pure_eq_ok.1 h
    exact .same rfl 0
  | cons p ps ih =>
    obtain ⟨between, s₁, hp, hps⟩ := importPacks_cons_eq_ok.1 h
    have hfirst := tallied_importPack hs hp
    rw [List.length_cons, List.flatMap_cons, List.length_append, Nat.add_comm ps.length]
    exact hfirst.trans (ih (importPack_frame hs hp).1 hps)

/-! ## Documents that are disabled -/

/-- A document is enabled, its pack is listed, and it is not. -/
def Drops (s : Store) (p : PackEntry) (row : DocumentRow) : Prop :=
  row.enabled = true ∧ (∃ pack ∈ s.packAt (Text.trim p.code), pack.id = row.pack) ∧
    (row.type, row.variant) ∉ p.documents.map DocumentEntry.label

instance (s : Store) (p : PackEntry) : DecidablePred (Drops s p) :=
  fun _ => inferInstanceAs (Decidable (_ ∧ _ ∧ _))

theorem mem_rows_iff (hs : s.Sound) {row : DocumentRow} :
    row ∈ s.documents.rows ↔ ∃ e, s.entryAt row.key = some e ∧ e.row = row := by
  constructor
  · exact fun hrow => ⟨_, hs.entryAt_eq hrow, rfl⟩
  · rintro ⟨e, he, rfl⟩
    exact (row_of_entryAt he).1

theorem nodup_rows (hs : s.Sound) : s.documents.rows.Nodup := by
  refine List.Pairwise.imp ?_ hs.documents.ordered
  rintro a _ h rfl
  exact Int.lt_irrefl _ h

/-- Documents whose entries are the same are as many. -/
theorem countP_rows_eq (hs : s.Sound) (hs' : s'.Sound) {q : DocumentRow → Bool}
    (h : ∀ row, q row = true → s'.entryAt row.key = s.entryAt row.key) :
    s'.documents.rows.countP q = s.documents.rows.countP q := by
  rw [List.countP_eq_length_filter, List.countP_eq_length_filter]
  refine List.Perm.length_eq ((List.perm_ext_iff_of_nodup ((nodup_rows hs').filter q)
    ((nodup_rows hs).filter q)).2 fun row => ?_)
  rw [List.mem_filter, List.mem_filter, mem_rows_iff hs, mem_rows_iff hs']
  exact and_congr_left fun hrow => by rw [h row hrow]

/-- How many documents are disabled. -/
theorem count_disableUnlisted {pack : Id} {listed : List Id} {n : Nat} (hs : s.Sound)
    (h : disableUnlisted pack listed s = .ok (n, s')) : n = s.documents.rows.countP fun row =>
      decide (row.pack = pack ∧ row.enabled = true ∧ row.id ∉ listed) := by
  rw [disableUnlisted, Action.get_bind_eq_ok] at h
  obtain ⟨_, _, -, hpure⟩ := Action.bind_eq_ok.1 h
  obtain ⟨rfl, -⟩ := Action.pure_eq_ok.1 hpure
  rw [← List.countP_eq_length_filter, packDocuments, List.countP_filterMap,
    (inSequence_perm _).countP_eq, List.countP_filter]
  refine List.countP_congr fun row hrow => ?_
  obtain ⟨doc, hread⟩ := readDocument?_eq hs hrow
  obtain ⟨hid, henabled, -⟩ := of_readDocument? hread
  simp only [hread, Option.map_some, Option.getD_some, hid, henabled, Bool.and_eq_true,
    Bool.not_eq_true', List.contains_eq_mem, decide_eq_false_iff_not, beq_iff_eq,
    decide_eq_true_eq]
  exact and_comm

/-- Of a pack whose documents were imported, those whose numbers were not given back are those
    that are not listed. -/
theorem Frame.not_mem_ids_iff {pack : Id} {ds : List DocumentEntry} {ids : List Id}
    (h : Frame pack ds ids s s') {row : DocumentRow} (hrow : row ∈ s'.documents.rows)
    (hpack : row.pack = pack) :
    row.id ∉ ids ↔ (row.type, row.variant) ∉ ds.map DocumentEntry.label := by
  refine not_congr ((h.ids _ _ (h.sound.entryAt_eq hrow)).trans ?_)
  rw [List.mem_map]
  refine exists_congr fun d => and_congr_right fun _ => ?_
  rw [key_wanted, ← hpack]
  exact ⟨fun hkey => (congrArg Prod.snd hkey).symm, fun hlabel => hlabel ▸ rfl⟩

/-- A pack that was added or changed has the documents that it had before. -/
theorem drops_iff (hs : s.Sound) {p : PackEntry} {pack : Pack}
    (h : upsertPack p.wanted s = .ok (pack, s₁)) {row : DocumentRow}
    (hrow : row ∈ s.documents.rows) : Drops s p row ↔ row.pack = pack.id ∧ row.enabled = true ∧
      (row.type, row.variant) ∉ p.documents.map DocumentEntry.label := by
  obtain ⟨-, hnumber, -, -⟩ := lookup_upsertPack h
  rw [Drops, and_left_comm]
  refine and_congr_left fun _ => ⟨?_, fun hpack => ?_⟩
  · rintro ⟨row', hat, hid⟩
    exact hid.symm.trans (hnumber row' hat)
  · cases hat : s.packAt (Text.trim p.code) with
    | none =>
      -- a pack that was added has no documents
      have hkey : row.key = (pack.id, row.type, row.variant) := by
        rw [← hpack]
        rfl
      have hentry := hs.entryAt_eq hrow
      rw [hkey, entryAt_of_added (hs.upsertPack h) hs h hat] at hentry
      cases hentry
    | some row' => exact ⟨row', rfl, (hnumber row' hat).trans hpack.symm⟩

/-- The documents that importing a pack disables. -/
theorem disabled_importPack (hs : s.Sound) {p : PackEntry}
    (h : importPack setting p report s = (.ok report', s')) :
    report'.disabled =
      report.disabled + s.documents.rows.countP fun row => decide (Drops s p row) := by
  obtain ⟨-, pack, s₁, listed, between, s₂, n, hpack, hdocuments, hdropped, rfl⟩ :=
    importPack_eq_ok.1 h
  have hs₁ := hs.upsertPack hpack
  have hframe := importDocuments_frame hs₁ hdocuments
  let unlisted (row : DocumentRow) : Bool := decide (row.pack = pack.id ∧ row.enabled = true ∧
    (row.type, row.variant) ∉ p.documents.map DocumentEntry.label)
  have hcount : n = s.documents.rows.countP fun row => decide (Drops s p row) :=
    calc
      n = s₂.documents.rows.countP fun row =>
          decide (row.pack = pack.id ∧ row.enabled = true ∧ row.id ∉ listed) :=
        count_disableUnlisted hframe.sound hdropped
      _ = s₂.documents.rows.countP unlisted := by
        refine List.countP_congr fun row hrow => ?_
        simp only [unlisted, decide_eq_true_eq]
        exact and_congr_right fun hrowpack => and_congr_right fun _ =>
          hframe.not_mem_ids_iff hrow hrowpack
      _ = s.documents.rows.countP unlisted := by
        refine countP_rows_eq hs hframe.sound fun row hrow => ?_
        obtain ⟨-, -, hlabel⟩ := of_decide_eq_true hrow
        refine (hframe.others _ fun d hd heq => hlabel ?_).trans ((lookup_upsertPack hpack).2.2.2 _)
        exact List.mem_map.2 ⟨d, hd, (congrArg Prod.snd heq).symm⟩
      _ = s.documents.rows.countP fun row => decide (Drops s p row) := by
        refine List.countP_congr fun row hrow => ?_
        simp only [unlisted, decide_eq_true_eq, drops_iff hs hpack hrow]
  rw [(tallied_importDocuments hs₁ hdocuments).2, hcount]

theorem countP_or {α : Type} {q r : α → Bool} {l : List α}
    (h : ∀ a ∈ l, q a = true → r a = false) :
    l.countP q + l.countP r = l.countP fun a => q a || r a := by
  induction l with
  | nil => rfl
  | cons a l ih =>
    obtain ⟨ha, hl⟩ := List.forall_mem_cons.1 h
    have hsum := ih hl
    rw [List.countP_cons, List.countP_cons, List.countP_cons, ← hsum]
    cases hq : q a with
    | true =>
      simp only [ha hq, Bool.or_false, if_true, Bool.false_eq_true, if_false]
      omega
    | false =>
      simp only [Bool.false_or, Bool.false_eq_true, if_false]
      omega

/-- **The count of documents that are disabled**, when no pack is listed twice. -/
theorem disabled_importPacks (hs : s.Sound) {ps : List PackEntry}
    (hcodes : (ps.map (Text.trim ·.code)).Nodup)
    (h : importPacks setting ps report s = (.ok report', s')) :
    report'.disabled = report.disabled +
      s.documents.rows.countP fun row => decide (∃ p ∈ ps, Drops s p row) := by
  induction ps generalizing s report with
  | nil =>
    obtain ⟨rfl, -⟩ := Run.pure_eq_ok.1 h
    simp
  | cons p ps ih =>
    obtain ⟨between, s₁, hp, hps⟩ := importPacks_cons_eq_ok.1 h
    obtain ⟨hcode, hcodes⟩ := List.nodup_cons.1 hcodes
    obtain ⟨hs₁, hpacks, id, hat, hentries⟩ := importPack_frame hs hp
    have hne : ∀ q ∈ ps, Text.trim q.code ≠ Text.trim p.code := fun q hq heq =>
      hcode (List.mem_map.2 ⟨q, hq, heq⟩)
    -- the later packs are others, so importing this one leaves what they drop alone
    have hdrops : ∀ row, (∃ q ∈ ps, Drops s₁ q row) ↔ ∃ q ∈ ps, Drops s q row := fun row =>
      exists_congr fun q => and_congr_right fun hq => by rw [Drops, Drops, hpacks _ (hne q hq)]
    have hrest : (s₁.documents.rows.countP fun row => decide (∃ q ∈ ps, Drops s₁ q row)) =
        s.documents.rows.countP fun row => decide (∃ q ∈ ps, Drops s q row) := by
      simp only [hdrops]
      refine countP_rows_eq hs hs₁ fun row hrow => hentries _ ?_
      obtain ⟨q, hq, -, ⟨pack, hpack, hid⟩, -⟩ := of_decide_eq_true hrow
      have hother := hs₁.id_ne_of_code_ne ((hpacks _ (hne q hq)).trans hpack) hat (hne q hq)
      exact fun heq => hother (hid.trans heq)
    rw [ih hs₁ hcodes hps, disabled_importPack hs hp, hrest, Nat.add_assoc, countP_or]
    · simp only [← Bool.decide_or, List.exists_mem_cons_iff]
    · intro row _ hfirst
      refine decide_eq_false ?_
      rintro ⟨q, hq, -, ⟨pack, hpack, hid⟩, -⟩
      obtain ⟨-, ⟨pack', hpack', hid'⟩, -⟩ := of_decide_eq_true hfirst
      exact hs.id_ne_of_code_ne hpack hpack' (hne q hq) (hid.trans hid'.symm)

/-! ## Documents that are listed -/

/-- Every document that is there stays there, with its versions. -/
def Grown (s s' : Store) : Prop :=
  ∀ code label c, s.contentAt code label = some c →
    ∃ c', s'.contentAt code label = some c' ∧ c.history <+: c'.history

theorem Grown.of_eq (h : ∀ code label, s'.contentAt code label = s.contentAt code label) :
    Grown s s' := fun code label c hc => ⟨c, (h code label).trans hc, List.prefix_refl _⟩

theorem Grown.trans (h : Grown s s₁) (h' : Grown s₁ s') : Grown s s' := by
  intro code label c hc
  obtain ⟨c₁, hc₁, hprefix⟩ := h code label c hc
  obtain ⟨c', hc', hprefix'⟩ := h' code label c₁ hc₁
  exact ⟨c', hc', hprefix.trans hprefix'⟩

/-- Importing an entry adds at most one version, and leaves one at least. -/
theorem DocumentEntry.applied_history (d : DocumentEntry) (code : String) (user : Option String)
    (named : Option TemplateFile) (before : Option Content) :
    (before.getD .blank).history <+: (d.applied code user named before).history ∧
      (d.applied code user named before).history ≠ [] := by
  unfold applied
  split
  · exact ⟨List.prefix_append _ _, List.concat_ne_nil _ _⟩
  · next hsame =>
    refine ⟨List.prefix_refl _, fun hnil => hsame ?_⟩
    rw [Content.differs, hnil, List.isEmpty_nil, Bool.or_true, Bool.true_or]

theorem Step.grown {ps : List PackEntry} (h : Step setting ps s s') (hs : s.Recorded) :
    Grown s s' := by
  cases h with
  | pack _ upsert => exact .of_eq (contentAt_upsertPack hs.sound upsert)
  | @document p d row _ _ _ pack imported =>
    obtain ⟨⟨named, -, hcontent⟩, hothers⟩ := contentAt_importDocument hs pack imported
    intro code label c hc
    by_cases hkey : (code, label) = (Text.trim p.code, d.label)
    · obtain ⟨rfl, rfl⟩ := Prod.mk.injEq .. ▸ hkey
      refine ⟨_, hcontent, ?_⟩
      have hprefix := (d.applied_history (Text.trim p.code) setting.signature.user named (some c)).1
      rwa [hc]
    · exact ⟨c, (hothers _ _ hkey).trans hc, List.prefix_refl _⟩
  | rejected _ _ pack rejected =>
    intro code label c hc
    obtain hsame | ⟨hkey, -, hplaced⟩ := contentAt_rejected hs pack rejected code label
    · exact ⟨c, hsame.trans hc, List.prefix_refl _⟩
    · obtain ⟨rfl, rfl⟩ := Prod.mk.injEq .. ▸ hkey
      rw [hc] at hplaced
      exact ⟨_, hplaced, List.prefix_refl _⟩
  | dropped _ pack ids dropped =>
    intro code label c hc
    have hafter := contentAt_disableUnlisted hs.sound pack ids dropped code label
    rw [hc] at hafter
    split at hafter
    · exact ⟨_, hafter, List.prefix_refl _⟩
    · exact ⟨c, hafter, List.prefix_refl _⟩

theorem Steps.grown {ps : List PackEntry} (h : Steps setting ps s s') (hs : s.Recorded) :
    Grown s s' := by
  induction h with
  | refl => exact .of_eq fun _ _ => rfl
  | tail steps step ih => exact ih.trans (step.grown (Steps.recorded steps hs))

/-- Whether a document is there with a version. -/
def Versioned (s : Store) (code : String) (label : String × String) : Prop :=
  ∃ c, s.contentAt code label = some c ∧ c.history ≠ []

theorem Versioned.grown {code : String} {label : String × String} (h : Versioned s code label)
    (hgrown : Grown s s') : Versioned s' code label := by
  obtain ⟨c, hc, hne⟩ := h
  obtain ⟨c', hc', hprefix⟩ := hgrown code label c hc
  exact ⟨c', hc', fun hnil => hne (List.prefix_nil.1 (hnil ▸ hprefix))⟩

theorem versioned_importDocuments (hs : s.Recorded) {p : PackEntry} {row : PackRow}
    (hat : s.packAt (Text.trim p.code) = some row) {ds : List DocumentEntry}
    (hds : ∀ d ∈ ds, d ∈ p.documents) {ids : List Id}
    (h : importDocuments setting row.id ds report s = (.ok (ids, report'), s')) :
    ∀ d ∈ ds, Versioned s' (Text.trim p.code) d.label := by
  induction ds generalizing s report ids with
  | nil => simp
  | cons d ds ih =>
    obtain ⟨-, hds⟩ := List.forall_mem_cons.1 hds
    obtain ⟨id, recorded, s₁, ids, hfirst, hrest, -⟩ := importDocuments_cons_eq_ok.1 h
    obtain ⟨hs₁, hpacks⟩ := importDocument_keeps_packs hs hfirst
    have hat₁ : s₁.packAt (Text.trim p.code) = some row := (packAt_congr hpacks _).trans hat
    obtain ⟨⟨named, -, hcontent⟩, -⟩ := contentAt_importDocument hs hat hfirst
    have hversioned : Versioned s₁ (Text.trim p.code) d.label :=
      ⟨_, hcontent, (d.applied_history _ _ _ _).2⟩
    obtain ⟨hsteps, -⟩ := steps_of_importDocuments (List.mem_singleton_self p) hds hs₁ hat₁ hrest
    exact List.forall_mem_cons.2 ⟨hversioned.grown (hsteps.grown hs₁), ih hs₁ hat₁ hds hrest⟩

/-- **Every document that is listed has a version.** -/
theorem versioned_importPacks (hs : s.Recorded) {ps : List PackEntry}
    (h : importPacks setting ps report s = (.ok report', s')) :
    ∀ p ∈ ps, ∀ d ∈ p.documents, Versioned s' (Text.trim p.code) d.label := by
  induction ps generalizing s report with
  | nil => simp
  | cons p ps ih =>
    obtain ⟨between, s₁, hp, hps⟩ := importPacks_cons_eq_ok.1 h
    obtain ⟨row, s₂, _, _, _, s₃, hpack, hat, hdocuments, hdropped⟩ :=
      stages_of_importPack hs (List.mem_singleton_self p) hp
    have hs₂ := hpack.recorded hs
    obtain ⟨hsteps, -⟩ :=
      steps_of_importDocuments (List.mem_singleton_self p) (fun _ hd => hd) hs₂ hat hdocuments
    have hs₃ := hsteps.recorded hs₂
    have hs₁ := hdropped.recorded hs₃
    have hrest : Steps setting ps s₁ s' := by
      have hsteps := steps_importPacks setting hs₁ ps (fun _ hq => hq) between
      rwa [hps] at hsteps
    refine List.forall_mem_cons.2 ⟨fun d hd => ?_, ih hs₁ hps⟩
    have hversioned := versioned_importDocuments hs₂ hat (fun _ hd => hd) hdocuments d hd
    exact (hversioned.grown (hdropped.grown hs₃)).grown (hrest.grown hs₁)

/-! ## Reports -/

/-- What each count of a report stands for. -/
structure Reports (setting : Setting) (catalog : Catalog) (s s' : Store) (report : ImportReport) :
    Prop where
  packs : report.packs = catalog.packs.length
  documents : report.documents = (catalog.packs.flatMap (·.documents)).length
  outcomes : report.documents = report.versions + report.unchanged
  /-- As many versions were recorded, by this import for its user. -/
  recorded : ∃ vs : List Version, s'.versions.rows = s.versions.rows ++ vs.map Version.row ∧
    vs.length = report.versions ∧ ∀ v ∈ vs, OfImport setting.signature.user v
  listed : ∀ p ∈ catalog.packs, ∀ d ∈ p.documents, Versioned s' (Text.trim p.code) d.label
  /-- As many documents of listed packs were enabled and are not listed. -/
  disabled : (catalog.packs.map (Text.trim ·.code)).Nodup →
    report.disabled =
      s.documents.rows.countP fun row => decide (∃ p ∈ catalog.packs, Drops s p row)

/-- **The report of an import is true**, whatever was done to the store before and however often a
    pack or a document is listed; the count of documents that were disabled is told when no pack is
    listed twice. -/
theorem report_is_true (ops : List Operation) (setting : Setting) (catalog : Catalog)
    {report : ImportReport} {s' : Store}
    (himport : importCatalog setting catalog (Generation.World.start.runAll ops).store =
      (.ok report, s')) :
    Reports setting catalog (Generation.World.start.runAll ops).store s' report := by
  have hs := recorded_runAll ops
  generalize (Generation.World.start.runAll ops).store = s at hs himport ⊢
  have htallied := tallied_importPacks hs.sound himport
  constructor
  case packs => exact htallied.packs.trans (Nat.zero_add _)
  case documents => exact htallied.documents.trans (Nat.zero_add _)
  case outcomes => exact htallied.documents.trans htallied.outcomes.symm
  case recorded =>
    obtain ⟨vs, hrows, hcount, hvs⟩ := htallied.recorded
    exact ⟨vs, hrows, (hcount.trans (Nat.zero_add _)).symm, hvs⟩
  case listed => exact versioned_importPacks hs himport
  case disabled =>
    intro hcodes
    exact (disabled_importPacks hs.sound hcodes himport).trans (Nat.zero_add _)

/-- The sample catalog leaves one document out. -/
theorem sample_report_is_true : ∃ s',
    importCatalog sampleSetting sampleCatalog (Generation.World.start.runAll sampleBefore).store =
      (.ok ⟨3, 2, 1, 1, 1⟩, s') ∧
    Reports sampleSetting sampleCatalog (Generation.World.start.runAll sampleBefore).store s'
      ⟨3, 2, 1, 1, 1⟩ ∧
    ((Generation.World.start.runAll sampleBefore).store.documents.rows.countP fun row =>
      decide (∃ p ∈ sampleCatalog.packs,
        Drops (Generation.World.start.runAll sampleBefore).store p row)) = 1 := by
  have hresult : (importCatalog sampleSetting sampleCatalog
      (Generation.World.start.runAll sampleBefore).store).1 = .ok ⟨3, 2, 1, 1, 1⟩ := by
    decide +kernel
  cases himport : importCatalog sampleSetting sampleCatalog
    (Generation.World.start.runAll sampleBefore).store with
  | mk result s' =>
    rw [himport] at hresult
    obtain rfl : result = .ok ⟨3, 2, 1, 1, 1⟩ := hresult
    have h := report_is_true sampleBefore sampleSetting sampleCatalog himport
    exact ⟨s', rfl, h, (h.disabled (by decide +kernel)).symm⟩

end Waybill.Catalog
