/-
  What a successful import leaves: the store is as the catalog says.

  * `Described` relates a document of a catalog to the entry that is kept of it;
  * `PackMatches` does so for a pack with its documents, those that are not listed among them;
  * `Imported`: the packs match, and nothing else was touched;
  * `Frame` is what importing documents of a pack leaves alone.

  Statements: `importDocument_ok` and `importPack_ok` (what importing one document or one pack comes
  to), `importDocuments_frame` (what it leaves alone), `Imported.cons` (imports of packs one after
  the other), and `import_matches_catalog`.
-/
import Waybill.Proofs.Catalog.Lookup
import Waybill.Proofs.Operation

namespace Waybill.Catalog

open Waybill.Mapping Waybill.History Waybill.Store Waybill.Files Waybill.Table

/-! ## What the catalog says -/

/-- What tells the documents of a pack apart. -/
def DocumentEntry.label (d : DocumentEntry) : String × String :=
  (Text.trim d.type, Text.trim d.variant)

/-- The entry of a document is as the catalog says; what the catalog does not name, its number and
    perhaps its template, is as it was before. -/
structure Described (setting : Setting) (d : DocumentEntry) (before : Option Entry) (e : Entry) :
    Prop where
  number : ∀ old ∈ before, e.row.id = old.row.id
  sequence : e.row.sequence = d.sequence
  enabled : e.row.enabled = d.enabled
  rules : e.rules.map (·.rule) = inSequence (·.sequence) (Rule.normalizedAll d.rules)
  template : ∃ named, setting.template d = .ok named ∧
    e.template = named.or (before.bind Entry.template)
  versions : e.versions ≠ []

/-- The pack of a number and its documents are as the catalog says; those that are not listed are
    disabled, and are as they were otherwise. -/
structure PackMatches (setting : Setting) (p : PackEntry) (id : Id) (s s' : Store) : Prop where
  pack : s'.packAt (Text.trim p.code) = some (p.wanted.row id)
  number : ∀ row ∈ s.packAt (Text.trim p.code), row.id = id
  listed : ∀ d ∈ p.documents, ∃ e, s'.entryAt (d.wanted id).key = some e ∧
    Described setting d (s.entryAt (d.wanted id).key) e
  dropped : ∀ type variant, (type, variant) ∉ p.documents.map DocumentEntry.label →
    s'.entryAt (id, type, variant) = (s.entryAt (id, type, variant)).map Entry.disabled

/-- Packs were imported: they match, and the other packs and their documents are as they were. -/
structure Imported (setting : Setting) (ps : List PackEntry) (s s' : Store) : Prop where
  packs : ∀ p ∈ ps, ∃ id, PackMatches setting p id s s'
  otherPacks : ∀ code ∉ ps.map (Text.trim ·.code), s'.packAt code = s.packAt code
  otherDocuments : ∀ k, (∀ p ∈ ps, ∀ row ∈ s'.packAt (Text.trim p.code), row.id ≠ k.1) →
    s'.entryAt k = s.entryAt k

variable {setting : Setting} {s s₁ s' : Store}

/-! ## One document -/

theorem key_wanted (d : DocumentEntry) (pack : Id) : (d.wanted pack).key = (pack, d.label) := rfl

theorem label_eq_of_key_eq {pack : Id} {d e : DocumentEntry}
    (h : (d.wanted pack).key = (e.wanted pack).key) : d.label = e.label := congrArg Prod.snd h

/-- The row of a document was added or changed, and its template is what it was. -/
structure Placed (d : NewDocument) (before : Option Entry) (e : Entry) : Prop where
  number : ∀ old ∈ before, e.row.id = old.row.id
  sequence : e.row.sequence = d.sequence
  enabled : e.row.enabled = d.enabled
  template : e.template = before.bind Entry.template

/-- The entry of a document after it was added or changed is the one that is read. -/
theorem exists_placed (hs : s.Sound) {d : NewDocument} {live : Document}
    (h : upsertDocument d s = .ok (live, s₁)) :
    ∃ e, s₁.entryAt d.key = some e ∧ e.row.id = live.id ∧ e.template = live.template ∧
      Placed d (s.entryAt d.key) e := by
  have hlive : ∀ e, s₁.entryAt d.key = some e → live.id = e.row.id →
      e.template = live.template := by
    intro e he hid
    have hread := (upsertDocument_ok h).1
    rw [hid, document?, (hs.upsertDocument h).documents.find?_eq (row_of_entryAt he).1] at hread
    exact (of_readDocument? hread).2.2.symm
  obtain ⟨-, -, ⟨old, hold, hid, hnew⟩ | ⟨hnone, hid, hnew⟩⟩ := entryAt_upsertDocument hs h
  · refine ⟨_, hnew, hid.symm, hlive _ hnew hid, ?_⟩
    rw [hold]
    exact ⟨fun _ hk => Option.some.inj hk ▸ rfl, rfl, rfl, rfl⟩
  · refine ⟨_, hnew, hid.symm, hlive _ hnew hid, ?_⟩
    rw [hnone]
    exact ⟨by simp, rfl, rfl, rfl⟩

theorem differs_eq_false {live : Document} {template : Option TemplateFile} {rules : List Rule} :
    differs s live template rules = false ↔ (∀ t, template = some t → live.template = some t) ∧
      s.nextNumber live.id ≠ 1 ∧
      s.rulesOf live.id = inSequence (·.sequence) (Rule.normalizedAll rules) := by
  cases template <;> simp [differs, and_assoc]

theorem versionRows_ne_nil {d : Id} (h : s.nextNumber d ≠ 1) : s.versionRows d ≠ [] :=
  fun hnil => h (nextNumber_of_numbers (n := 0) (by rw [hnil]; rfl))

section
variable {d : DocumentEntry} {pack : Id} {live : Document} {named : Option TemplateFile}
  {before : Option Entry} {e : Entry}

/-- A document that gets no new version already is as the catalog says. -/
theorem Placed.described_of_same (h : Placed (d.wanted pack) before e)
    (hnamed : setting.template d = .ok named) (he : e = s.entryOf e.row)
    (hid : e.row.id = live.id) (hlive : e.template = live.template)
    (hsame : differs s live named d.rules = false) : Described setting d before e := by
  obtain ⟨htemplate, hnumber, hrules⟩ := differs_eq_false.1 hsame
  rw [← hid] at hnumber hrules
  constructor
  case number => exact h.number
  case sequence => exact h.sequence
  case enabled => exact h.enabled
  case rules =>
    rw [he]
    exact hrules
  case template =>
    refine ⟨named, hnamed, ?_⟩
    cases named with
    | none => exact h.template
    | some file => exact hlive.trans (htemplate file rfl)
  case versions =>
    rw [he]
    exact versionRows_ne_nil hnumber

/-- A document of which a version is recorded is as the catalog says. -/
theorem Placed.described_of_commit (h : Placed (d.wanted pack) before e)
    (hnamed : setting.template d = .ok named)
    (hfile : ∀ file, named = some file → file.bytes.isEmpty = false) {v : Version}
    (hcommit : Commit s e.row.id ⟨named.map some, some d.rules⟩ setting.signature .save importNote
      v s') :
    Described setting d before
      ⟨{ e.row with template := (named.map some).getD e.row.template }, s'.ruleRows e.row.id,
        s'.versionRows e.row.id⟩ := by
  constructor
  case number => exact h.number
  case sequence => exact h.sequence
  case enabled => exact h.enabled
  case rules => exact hcommit.rulesOf
  case template =>
    refine ⟨named, hnamed, ?_⟩
    cases named with
    | none => exact h.template
    | some file => simp [Entry.template, TemplateFile.present?, hfile file rfl]
  case versions =>
    change s'.versionRows e.row.id ≠ []
    rw [hcommit.versionRows]
    exact List.concat_ne_nil _ _

end

/-- A document that was imported is as the catalog says, whether a version was recorded or not. -/
theorem importDocument_ok (hs : s.Sound) {pack : Id} {d : DocumentEntry} {r : Id × Bool}
    (hfile : ∀ file, setting.template d = .ok (some file) → file.bytes.isEmpty = false)
    (h : importDocument setting pack d s = (.ok r, s')) :
    ∃ e, s'.entryAt (d.wanted pack).key = some e ∧
      Described setting d (s.entryAt (d.wanted pack).key) e := by
  obtain ⟨named, live, s₁, hnamed, hupsert, rfl, hafter⟩ := importDocument_eq_ok.1 h
  obtain ⟨e, he, hid, hlive, hplaced⟩ := exists_placed hs hupsert
  split at hafter
  · next hdiffers =>
    obtain ⟨v, hedit⟩ := hafter
    rw [← hid] at hedit
    have hcommit := (saveEdit_eq_ok (hs.upsertDocument hupsert)).1 hedit
    have he' := hcommit.lookup.2 (d.wanted pack).key
    rw [he, Option.map_some, if_pos rfl] at he'
    exact ⟨_, he', hplaced.described_of_commit hnamed (fun file hf => hfile file (hf ▸ hnamed))
      hcommit⟩
  · next hsame =>
    rw [Bool.not_eq_true] at hsame
    obtain rfl := hafter
    exact ⟨e, he, hplaced.described_of_same hnamed (row_of_entryAt he).2.2 hid hlive hsame⟩

/-! ## What stays -/

/-- Documents of a pack were imported: the packs and the other documents are as they were, every
    document keeps its number, and the numbers given back are those of the listed ones. -/
structure Frame (pack : Id) (ds : List DocumentEntry) (ids : List Id) (s s' : Store) : Prop where
  sound : s'.Sound
  packs : s'.packs = s.packs
  others : ∀ k, (∀ d ∈ ds, k ≠ (d.wanted pack).key) → s'.entryAt k = s.entryAt k
  numbers : ∀ k e, s.entryAt k = some e → ∃ e', s'.entryAt k = some e' ∧ e'.row.id = e.row.id
  listed : ∀ d ∈ ds, ∃ e, s'.entryAt (d.wanted pack).key = some e
  ids : ∀ k e, s'.entryAt k = some e → (e.row.id ∈ ids ↔ ∃ d ∈ ds, k = (d.wanted pack).key)

theorem Frame.nil (hs : s.Sound) (pack : Id) : Frame pack [] [] s s :=
  ⟨hs, rfl, fun _ _ => rfl, fun _ e he => ⟨e, he, rfl⟩, by simp, by simp⟩

theorem Frame.cons {pack id : Id} {d : DocumentEntry} {ds : List DocumentEntry} {ids : List Id}
    (h : Frame pack [d] [id] s s₁) (h' : Frame pack ds ids s₁ s') :
    Frame pack (d :: ds) (id :: ids) s s' := by
  have hnumbers : ∀ k e, s.entryAt k = some e →
      ∃ e', s'.entryAt k = some e' ∧ e'.row.id = e.row.id := by
    intro k e he
    obtain ⟨e₁, he₁, hid₁⟩ := h.numbers k e he
    obtain ⟨e', he', hid'⟩ := h'.numbers k e₁ he₁
    exact ⟨e', he', hid'.trans hid₁⟩
  obtain ⟨e₁, he₁⟩ := h.listed d List.mem_cons_self
  obtain ⟨e', he', hid'⟩ := h'.numbers _ e₁ he₁
  have hid : e'.row.id = id := by
    have hmem := (h.ids _ e₁ he₁).2 ⟨d, List.mem_cons_self, rfl⟩
    exact hid'.trans (List.mem_singleton.1 hmem)
  constructor
  case sound => exact h'.sound
  case packs => exact h'.packs.trans h.packs
  case others =>
    intro k hk
    obtain ⟨hfirst, hrest⟩ := List.forall_mem_cons.1 hk
    exact (h'.others k hrest).trans (h.others k (List.forall_mem_singleton.2 hfirst))
  case numbers => exact hnumbers
  case listed => exact List.forall_mem_cons.2 ⟨⟨e', he'⟩, h'.listed⟩
  case ids =>
    intro k e he
    have hfirst : e.row.id = id ↔ k = (d.wanted pack).key := by
      constructor
      · exact fun h => h'.sound.key_eq_of_id_eq he he' (h.trans hid.symm)
      · rintro rfl
        obtain rfl : e' = e := Option.some.inj (he'.symm.trans he)
        exact hid
    rw [List.mem_cons, List.exists_mem_cons_iff, hfirst, h'.ids k e he]

/-- What importing one document leaves alone. -/
theorem importDocument_frame (hs : s.Sound) {pack : Id} {d : DocumentEntry} {r : Id × Bool}
    (h : importDocument setting pack d s = (.ok r, s')) : Frame pack [d] [r.1] s s' := by
  obtain ⟨named, live, s₁, -, hupsert, rfl, hafter⟩ := importDocument_eq_ok.1 h
  have hs₁ := hs.upsertDocument hupsert
  obtain ⟨hpacks₁, hothers₁, -⟩ := entryAt_upsertDocument hs hupsert
  obtain ⟨e, he, hid, -, hplaced⟩ := exists_placed hs hupsert
  have hne : ∀ k ≠ (d.wanted pack).key, ∀ other, s₁.entryAt k = some other →
      other.row.id ≠ live.id := fun k hk other hother heq =>
    hk (hs₁.key_eq_of_id_eq hother he (heq.trans hid.symm))
  -- whether a version is recorded or not, entries of other numbers stay and the number is the same
  have hafter : s'.Sound ∧ s'.packs = s.packs ∧ (∀ k ≠ (d.wanted pack).key,
      s'.entryAt k = s₁.entryAt k) ∧
      ∃ e', s'.entryAt (d.wanted pack).key = some e' ∧ e'.row.id = live.id := by
    split at hafter
    · obtain ⟨v, hedit⟩ := hafter
      have hcommit := (saveEdit_eq_ok hs₁).1 hedit
      obtain ⟨hpacks, hentries⟩ := hcommit.lookup
      refine ⟨hcommit.sound hs₁, hpacks.trans hpacks₁, fun k hk => ?_, ?_⟩
      · rw [hentries]
        cases hother : s₁.entryAt k with
        | none => rfl
        | some other => rw [Option.map_some, if_neg (hne k hk other hother)]
      · rw [hentries, he, Option.map_some, if_pos hid]
        exact ⟨_, rfl, hid⟩
    · obtain rfl := hafter
      exact ⟨hs₁, hpacks₁, fun _ _ => rfl, e, he, hid⟩
  obtain ⟨hs', hpacks, hothers, e', he', hid'⟩ := hafter
  constructor
  case sound => exact hs'
  case packs => exact hpacks
  case others =>
    intro k hk
    have hk := List.forall_mem_singleton.1 hk
    exact (hothers k hk).trans (hothers₁ k hk)
  case numbers =>
    intro k old hold
    by_cases hk : k = (d.wanted pack).key
    · subst hk
      exact ⟨e', he', hid'.trans (hid.symm.trans (hplaced.number old hold))⟩
    · exact ⟨old, (hothers k hk).trans ((hothers₁ k hk).trans hold), rfl⟩
  case listed => exact List.forall_mem_singleton.2 ⟨e', he'⟩
  case ids =>
    intro k other hother
    simp only [List.mem_singleton, exists_eq_left]
    constructor
    · exact fun h => hs'.key_eq_of_id_eq hother he' (h.trans hid'.symm)
    · rintro rfl
      obtain rfl : e' = other := Option.some.inj (he'.symm.trans hother)
      exact hid'

/-! ## The documents of a pack -/

/-- The template files that a catalog's entries name have a content. -/
def Setting.Filled (setting : Setting) (ds : List DocumentEntry) : Prop :=
  ∀ d ∈ ds, ∀ file, setting.template d = .ok (some file) → file.bytes.isEmpty = false

/-- The content of a template file is one that was read. -/
theorem read_of_template {d : DocumentEntry} {file : TemplateFile}
    (h : setting.template d = .ok (some file)) : ∃ path, setting.read path = .ok file.bytes := by
  unfold Setting.template at h
  cases hpath : d.template with
  | none =>
    rw [hpath] at h
    cases h
  | some path =>
    rw [hpath] at h
    refine ⟨joined setting.directory path, ?_⟩
    cases hread : setting.read (joined setting.directory path) with
    | error detail => simp [readTemplate, hread] at h
    | ok bytes =>
      simp only [Option.mapM_some, readTemplate, hread] at h
      cases h
      rfl

theorem filled_of_read (h : ∀ path bytes, setting.read path = .ok bytes → bytes.isEmpty = false)
    (ds : List DocumentEntry) : setting.Filled ds := fun _ _ _ htemplate =>
  have ⟨path, hread⟩ := read_of_template htemplate
  h path _ hread

/-- What importing documents leaves alone. -/
theorem importDocuments_frame (hs : s.Sound) {pack : Id} {ds : List DocumentEntry}
    {report report' : ImportReport} {ids : List Id}
    (h : importDocuments setting pack ds report s = (.ok (ids, report'), s')) :
    Frame pack ds ids s s' := by
  induction ds generalizing s report ids with
  | nil =>
    obtain ⟨hids, rfl⟩ := Run.pure_eq_ok.1 h
    obtain ⟨rfl, -⟩ := Prod.mk.injEq .. ▸ hids
    exact .nil hs pack
  | cons d ds ih =>
    obtain ⟨id, recorded, s₁, ids, hd, hds, rfl⟩ := importDocuments_cons_eq_ok.1 h
    have hfirst := importDocument_frame hs hd
    exact hfirst.cons (ih hfirst.sound hds)

/-- Documents that were imported are as the catalog says. -/
theorem importDocuments_ok (hs : s.Sound) {pack : Id} {ds : List DocumentEntry}
    {report report' : ImportReport} {ids : List Id}
    (hlabels : (ds.map DocumentEntry.label).Nodup) (hfiles : setting.Filled ds)
    (h : importDocuments setting pack ds report s = (.ok (ids, report'), s')) :
    ∀ d ∈ ds, ∃ e, s'.entryAt (d.wanted pack).key = some e ∧
      Described setting d (s.entryAt (d.wanted pack).key) e := by
  induction ds generalizing s report ids with
  | nil => simp
  | cons d ds ih =>
    obtain ⟨id, recorded, s₁, ids, hd, hds, rfl⟩ := importDocuments_cons_eq_ok.1 h
    obtain ⟨hlabel, hlabels⟩ := List.nodup_cons.1 hlabels
    have hfirst := importDocument_frame hs hd
    have hne : ∀ d' ∈ ds, (d.wanted pack).key ≠ (d'.wanted pack).key := fun d' hd' heq =>
      hlabel (label_eq_of_key_eq heq ▸ List.mem_map_of_mem hd')
    obtain ⟨e, he, hdescribed⟩ := importDocument_ok hs (hfiles d List.mem_cons_self) hd
    have hothers := (importDocuments_frame hfirst.sound hds).others
    refine List.forall_mem_cons.2 ⟨⟨e, (hothers _ hne).trans he, hdescribed⟩, fun d' hd' => ?_⟩
    rw [← hfirst.others _ (List.forall_mem_singleton.2 (hne d' hd').symm)]
    exact ih hfirst.sound hlabels (fun d hd => hfiles d (List.mem_cons_of_mem _ hd)) hds d' hd'

/-! ## One pack -/

theorem packAt_congr (h : s'.packs = s.packs) (code : String) : s'.packAt code = s.packAt code := by
  unfold packAt
  rw [h]

/-- What importing a pack leaves alone. -/
theorem importPack_frame (hs : s.Sound) {p : PackEntry} {report report' : ImportReport}
    (h : importPack setting p report s = (.ok report', s')) :
    s'.Sound ∧ (∀ code ≠ Text.trim p.code, s'.packAt code = s.packAt code) ∧
      ∃ id, s'.packAt (Text.trim p.code) = some (p.wanted.row id) ∧
        ∀ k, k.1 ≠ id → s'.entryAt k = s.entryAt k := by
  obtain ⟨-, pack, s₁, listed, between, s₂, disabled, hpack, hdocuments, hdisabled, -⟩ :=
    importPack_eq_ok.1 h
  obtain ⟨hat, -, hcodes, hentries₁⟩ := lookup_upsertPack hpack
  obtain ⟨hs₂, hpacks₂, hothers, -, -, -⟩ := importDocuments_frame (hs.upsertPack hpack) hdocuments
  have hs' : s'.Sound :=
    (disableUnlisted_keeps quiet_setEnabled pack.id listed s₂ disabled s' hdisabled).sound hs₂
  have hpacks : ∀ code, s'.packAt code = s₁.packAt code :=
    packAt_congr ((lookup_disableUnlisted hs₂ hdisabled).1.trans hpacks₂)
  refine ⟨hs', fun code hcode => (hpacks code).trans (hcodes code hcode), pack.id,
    (hpacks _).trans hat, fun k hk => ?_⟩
  rw [entryAt_of_listed hs₂ hdisabled fun heq => absurd heq hk,
    hothers k fun d _ heq => hk (congrArg Prod.fst heq), hentries₁]

/-- A pack that was imported matches, and nothing else was touched. -/
theorem importPack_ok (hs : s.Sound) {p : PackEntry} {report report' : ImportReport}
    (hlabels : (p.documents.map DocumentEntry.label).Nodup) (hfiles : setting.Filled p.documents)
    (h : importPack setting p report s = (.ok report', s')) :
    s'.Sound ∧ Imported setting [p] s s' := by
  obtain ⟨hs', hotherPacks, id, hat', hotherDocuments⟩ := importPack_frame hs h
  obtain ⟨-, pack, s₁, listed, between, s₂, disabled, hpack, hdocuments, hdisabled, -⟩ :=
    importPack_eq_ok.1 h
  obtain ⟨hat, hnumber, -, hentries₁⟩ := lookup_upsertPack hpack
  have hs₁ := hs.upsertPack hpack
  obtain ⟨hs₂, hpacks₂, hothers, -, -, hids⟩ := importDocuments_frame hs₁ hdocuments
  have hlisted := importDocuments_ok hs₁ hlabels hfiles hdocuments
  simp only [hentries₁] at hothers hlisted
  have hpacks : ∀ code, s'.packAt code = s₁.packAt code :=
    packAt_congr ((lookup_disableUnlisted hs₂ hdisabled).1.trans hpacks₂)
  refine ⟨hs', ?_⟩
  constructor
  case packs =>
    refine List.forall_mem_singleton.2 ⟨pack.id, ?_⟩
    constructor
    case pack => exact (hpacks _).trans hat
    case number => exact fun row hrow => hnumber row hrow
    case listed =>
      intro d hd
      obtain ⟨e, he, hdescribed⟩ := hlisted d hd
      refine ⟨e, (entryAt_of_listed hs₂ hdisabled fun _ e he => ?_).trans he, hdescribed⟩
      exact (hids _ e he).2 ⟨d, hd, rfl⟩
    case dropped =>
      intro type variant hlabel
      have hne : ∀ d ∈ p.documents, (pack.id, type, variant) ≠ (d.wanted pack.id).key :=
        fun d hd heq => hlabel (List.mem_map.2 ⟨d, hd, (congrArg Prod.snd heq).symm⟩)
      rw [← hothers _ hne]
      refine entryAt_of_unlisted hs₂ hdisabled rfl fun e he hid => ?_
      obtain ⟨d, hd, heq⟩ := (hids _ e he).1 hid
      exact hne d hd heq
  case otherPacks =>
    exact fun code hcode => hotherPacks code fun heq => hcode (List.mem_singleton.2 heq)
  case otherDocuments =>
    exact fun k hk => hotherDocuments k (hk p List.mem_cons_self _ hat').symm

/-! ## All packs -/

/-- Whether a pack matches is told from the pack and its documents, before and after. -/
theorem PackMatches.congr {p : PackEntry} {id : Id} {t t' : Store}
    (h : PackMatches setting p id s s')
    (hpack : t.packAt (Text.trim p.code) = s.packAt (Text.trim p.code))
    (hpack' : t'.packAt (Text.trim p.code) = s'.packAt (Text.trim p.code))
    (hentries : ∀ k, k.1 = id → t.entryAt k = s.entryAt k)
    (hentries' : ∀ k, k.1 = id → t'.entryAt k = s'.entryAt k) : PackMatches setting p id t t' := by
  constructor
  case pack => exact hpack'.trans h.pack
  case number =>
    rw [hpack]
    exact h.number
  case listed =>
    intro d hd
    rw [hentries _ rfl, hentries' _ rfl]
    exact h.listed d hd
  case dropped =>
    intro type variant hlabel
    rw [hentries _ rfl, hentries' _ rfl]
    exact h.dropped type variant hlabel

theorem Imported.cons {p : PackEntry} {ps : List PackEntry} (hs : s'.Sound)
    (hcode : Text.trim p.code ∉ ps.map (Text.trim ·.code))
    (hp : Imported setting [p] s s₁) (hps : Imported setting ps s₁ s') :
    Imported setting (p :: ps) s s' := by
  obtain ⟨id, hmatches⟩ := hp.packs p List.mem_cons_self
  have hat : s'.packAt (Text.trim p.code) = s₁.packAt (Text.trim p.code) := hps.otherPacks _ hcode
  have hcodes : ∀ q ∈ ps, Text.trim q.code ≠ Text.trim p.code := fun q hq heq =>
    hcode (List.mem_map.2 ⟨q, hq, heq⟩)
  -- the other packs have other numbers, so each step leaves the documents of the other alone
  have hne : ∀ q ∈ ps, ∀ row ∈ s'.packAt (Text.trim q.code), row.id ≠ id := fun q hq row hrow =>
    hs.id_ne_of_code_ne hrow (hat.trans hmatches.pack) (hcodes q hq)
  have hbefore : ∀ k, k.1 ≠ id → s₁.entryAt k = s.entryAt k := by
    intro k hk
    refine hp.otherDocuments k (List.forall_mem_singleton.2 fun row hrow => ?_)
    obtain rfl : _ = row := Option.some.inj (hmatches.pack.symm.trans hrow)
    exact hk.symm
  constructor
  case packs =>
    refine List.forall_mem_cons.2 ⟨⟨id, ?_⟩, fun q hq => ?_⟩
    · refine hmatches.congr rfl hat (fun _ _ => rfl) fun k hk => ?_
      exact hps.otherDocuments k (hk ▸ hne)
    · obtain ⟨id', hq'⟩ := hps.packs q hq
      have hid : id' ≠ id := hne q hq _ hq'.pack
      refine ⟨id', hq'.congr (hp.otherPacks _ ?_).symm rfl (fun k hk => ?_) fun _ _ => rfl⟩
      · exact fun hmem => hcodes q hq (List.mem_singleton.1 hmem)
      · exact (hbefore k (hk ▸ hid)).symm
  case otherPacks =>
    intro code hnone
    rw [List.map_cons, List.mem_cons, not_or] at hnone
    rw [hps.otherPacks code hnone.2, hp.otherPacks code (by simpa using hnone.1)]
  case otherDocuments =>
    intro k hk
    obtain ⟨hfirst, hrest⟩ := List.forall_mem_cons.1 hk
    have hid : id ≠ k.1 := hfirst _ (hat.trans hmatches.pack)
    rw [hps.otherDocuments k hrest, hbefore k hid.symm]

/-- **Packs that were imported match**, and nothing else was touched. -/
theorem importPacks_ok (hs : s.Sound) {ps : List PackEntry} {report report' : ImportReport}
    (hcodes : (ps.map (Text.trim ·.code)).Nodup)
    (hlabels : ∀ p ∈ ps, (p.documents.map DocumentEntry.label).Nodup)
    (hfiles : ∀ p ∈ ps, setting.Filled p.documents)
    (h : importPacks setting ps report s = (.ok report', s')) :
    s'.Sound ∧ Imported setting ps s s' := by
  induction ps generalizing s report with
  | nil =>
    obtain ⟨-, rfl⟩ := Run.pure_eq_ok.1 h
    exact ⟨hs, by simp, fun _ _ => rfl, fun _ _ => rfl⟩
  | cons p ps ih =>
    obtain ⟨between, s₁, hp, hps⟩ := importPacks_cons_eq_ok.1 h
    obtain ⟨hcode, hcodes⟩ := List.nodup_cons.1 hcodes
    obtain ⟨hlabel, hlabels⟩ := List.forall_mem_cons.1 hlabels
    obtain ⟨hfile, hfiles⟩ := List.forall_mem_cons.1 hfiles
    obtain ⟨hs₁, hfirst⟩ := importPack_ok hs hlabel hfile hp
    obtain ⟨hs', hrest⟩ := ih hs₁ hcodes hlabels hfiles hps
    exact ⟨hs', hfirst.cons hs' hcode hrest⟩

/-! ## Numbers that are kept -/

/-- A pack that was there before is there after, with its number. -/
theorem Imported.exists_pack {ps : List PackEntry} (h : Imported setting ps s s') (hs : s.Sound)
    {row : PackRow} (hrow : row ∈ s.packs.rows) :
    ∃ row' ∈ s'.packs.rows, row'.id = row.id ∧ row'.code = row.code := by
  have hat : s.packAt row.code = some row := hs.packAt_eq hrow
  by_cases hcode : row.code ∈ ps.map (Text.trim ·.code)
  · obtain ⟨p, hp, hcode⟩ := List.mem_map.1 hcode
    obtain ⟨id, hmatches⟩ := h.packs p hp
    have hid : row.id = id := hmatches.number row (by rw [hcode]; exact hat)
    exact ⟨_, (mem_of_packAt hmatches.pack).1, hid.symm, hcode⟩
  · rw [← h.otherPacks _ hcode] at hat
    exact ⟨row, (mem_of_packAt hat).1, rfl, rfl⟩

/-- A document that was there before is there after, with its number. -/
theorem Imported.exists_document {ps : List PackEntry} (h : Imported setting ps s s')
    (hs : s.Sound) {row : DocumentRow} (hrow : row ∈ s.documents.rows) :
    ∃ row' ∈ s'.documents.rows, row'.id = row.id ∧ row'.key = row.key := by
  have hentry := hs.entryAt_eq hrow
  have of_entry : ∀ e, s'.entryAt row.key = some e → e.row.id = row.id →
      ∃ row' ∈ s'.documents.rows, row'.id = row.id ∧ row'.key = row.key := fun e he hid =>
    ⟨e.row, (row_of_entryAt he).1, hid, (row_of_entryAt he).2.1⟩
  by_cases hpack : ∀ p ∈ ps, ∀ pack ∈ s'.packAt (Text.trim p.code), pack.id ≠ row.pack
  · exact of_entry _ ((h.otherDocuments row.key hpack).trans hentry) rfl
  · simp only [not_forall, not_not] at hpack
    obtain ⟨p, hp, pack, hat, hid⟩ := hpack
    obtain ⟨id, hmatches⟩ := h.packs p hp
    obtain rfl : p.wanted.row id = pack := Option.some.inj (hmatches.pack.symm.trans hat)
    obtain rfl : id = row.pack := hid
    by_cases hlabel : (row.type, row.variant) ∈ p.documents.map DocumentEntry.label
    · obtain ⟨d, hd, hlabel⟩ := List.mem_map.1 hlabel
      have hkey : (d.wanted row.pack).key = row.key := by
        rw [key_wanted, hlabel]
        rfl
      obtain ⟨e, he, hdescribed⟩ := hmatches.listed d hd
      rw [hkey] at he hdescribed
      exact of_entry e he (hdescribed.number _ hentry)
    · have hdropped := hmatches.dropped row.type row.variant hlabel
      exact of_entry _ (hdropped.trans (congrArg _ hentry)) rfl

/-! ## Imports -/

/-- **A successful import makes the store match the catalog.**  It is said of every store that
    operations lead to; every document is one row, and packs and documents keep their numbers. -/
theorem import_matches_catalog (ops : List Operation) (setting : Setting) (catalog : Catalog)
    {report : ImportReport} {s' : Store}
    (hcodes : (catalog.packs.map (Text.trim ·.code)).Nodup)
    (hlabels : ∀ p ∈ catalog.packs, (p.documents.map DocumentEntry.label).Nodup)
    (hfiles : ∀ p ∈ catalog.packs, setting.Filled p.documents)
    (himport : importCatalog setting catalog (Generation.World.start.runAll ops).store =
      (.ok report, s')) :
    Imported setting catalog.packs (Generation.World.start.runAll ops).store s' ∧
      (∀ code row, s'.packAt code = some row →
        (s'.packs.rows.filter fun row => row.code = code) = [row]) ∧
      (∀ k e, s'.entryAt k = some e → (s'.documents.rows.filter fun row => row.key = k) = [e.row]) ∧
      (∀ row ∈ (Generation.World.start.runAll ops).store.packs.rows, ∃ row' ∈ s'.packs.rows,
        row'.id = row.id ∧ row'.code = row.code) ∧
      ∀ row ∈ (Generation.World.start.runAll ops).store.documents.rows,
        ∃ row' ∈ s'.documents.rows, row'.id = row.id ∧ row'.key = row.key := by
  have hs := (recorded_runAll ops).sound
  generalize (Generation.World.start.runAll ops).store = s at hs himport ⊢
  obtain ⟨hs', h⟩ := importPacks_ok hs hcodes hlabels hfiles himport
  refine ⟨h, fun code row hat => ?_, fun k e he => ?_, fun row hrow => h.exists_pack hs hrow,
    fun row hrow => h.exists_document hs hrow⟩
  · obtain ⟨hrow, rfl⟩ := mem_of_packAt hat
    exact hs'.packCodes.filter_eq hrow
  · obtain ⟨hrow, rfl, -⟩ := row_of_entryAt he
    exact hs'.documentKeys.filter_eq hrow

/-- What the sample catalogs are imported with. -/
def sampleSetting : Setting :=
  ⟨fun _ => .ok ⟨#[80, 75]⟩, "packs", sampleSignature⟩

theorem sampleSetting_filled (ds : List DocumentEntry) : sampleSetting.Filled ds := by
  refine filled_of_read (fun path bytes h => ?_) ds
  rw [← Except.ok.inj h]
  rfl

/-- The imports before the sample one: two packs with a document each. -/
def sampleBefore : List Operation :=
  [sampleImport, .importing sampleSetting
    ⟨[⟨"C", "", true, .a4, none, [⟨"label", "", 1, true, none, []⟩]⟩]⟩]

/-- A catalog to import after that: the first document is listed in another spelling and has no new
    version, the second is not listed any more, and a pack with a document is new. -/
def sampleCatalog : Catalog :=
  ⟨[⟨" A", " Air ", true, .a4, none, [⟨"note ", "", 1, true, some "note.xlsx",
      [⟨"Sheet1", "b2", " shipment.reference", "", true, 1⟩]⟩]⟩,
    ⟨"B", "", true, .a4, none, [⟨"invoice", "", 2, false, none,
      [⟨"Sheet1", "c3", "shipment.date", "", true, 7⟩]⟩]⟩,
    ⟨"C", "", true, .a4, none, []⟩]⟩

theorem sample_import_matches : ∃ s',
    importCatalog sampleSetting sampleCatalog
      (Generation.World.start.runAll sampleBefore).store = (.ok ⟨3, 2, 1, 1, 1⟩, s') ∧
    Imported sampleSetting sampleCatalog.packs
      (Generation.World.start.runAll sampleBefore).store s' := by
  have hresult : (importCatalog sampleSetting sampleCatalog
      (Generation.World.start.runAll sampleBefore).store).1 = .ok ⟨3, 2, 1, 1, 1⟩ := by
    decide +kernel
  cases himport : importCatalog sampleSetting sampleCatalog
    (Generation.World.start.runAll sampleBefore).store with
  | mk result s' =>
    rw [himport] at hresult
    obtain rfl : result = .ok ⟨3, 2, 1, 1, 1⟩ := hresult
    have h := import_matches_catalog sampleBefore sampleSetting sampleCatalog (by decide +kernel)
      (by decide +kernel) (fun p _ => sampleSetting_filled p.documents) himport
    exact ⟨s', rfl, h.1⟩

end Waybill.Catalog
