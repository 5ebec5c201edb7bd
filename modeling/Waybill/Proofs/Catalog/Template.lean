/-
  Templates that are read back as they were stored.

  The store keeps a template as a name and bytes that may be missing, for a document and for each
  of its versions; a template without bytes counts as none.

  * `ReadBack` is what a stored template is good for: it is live, the newest version has its bytes,
    the document is rendered with them, and restoring that version makes them live again;
  * `Catalog.filesFor` are the files that a catalog names for a document, in order;
  * `Leaves`: the last of these files is the template that is live afterwards.

  Statements: `readBack_of_live` (a template that is live is read back), `leaves_importPacks` (which
  template an import leaves), and `templates_are_read_back`.
-/
import Waybill.Proofs.Catalog.Report
import Waybill.Proofs.Generation.Jobs
import Waybill.Proofs.History.Timeline

namespace Waybill

open Waybill.History Waybill.Store Waybill.Generation

/-! ## Templates that are live -/

/-- The template of a document is live, with a version, and everything that reads it comes to its
    bytes. -/
structure ReadBack (s : Store) (id : Id) (t : TemplateFile) (v : Version) : Prop where
  live : ∃ doc, s.document? id = some doc ∧ doc.template = some t
  newest : ∃ older, s.versionsOf id = .ok (v :: older)
  recorded : v.template.map (·.bytes) = some t.bytes
  /-- A job for the document fills these bytes by the live rules. -/
  rendered : ∀ (around : Surroundings) (past : List Event) (setting : Generation.Setting)
    (request : Request) (p : Plan) (js : List Job), planned setting request s = .ok (p, js) →
    ∀ j ∈ js, j.document.id = id →
      (renderJob setting p j).on around ⟨s, past⟩ =
        (filled setting.format t.bytes (s.rulesOf id)
          (payloadOf p.shipment j.carton j.document (around.today past)),
        ⟨s, past ++ [.today (around.today past)]⟩)
  /-- Restoring the version after other operations succeeds, and makes these bytes live. -/
  restored : ∀ (past : List Event) (later : List Operation) (signature : Signature)
    (note : String), ∃ r s' doc,
      restore v.id signature note ((World.mk s past).runAll later).store = .ok (r, s') ∧
      s'.document? id = some doc ∧ doc.template.map (·.bytes) = some t.bytes

variable {s s' : Store} {id : Id} {t : TemplateFile} {v : Version}

/-- What is live of a document is what its newest version says. -/
theorem Store.Recorded.live_of_newest (hs : s.Recorded) {older : List Version}
    (hv : s.versionsOf id = .ok (v :: older)) : v.row ∈ s.versions.rows ∧ v.document = id ∧
      s.rulesOf id = v.rules ∧ s.templateBytes id = v.template.map (·.bytes) := by
  obtain ⟨vs, hvs⟩ := hs.exists_versions id
  obtain rfl : vs = older.reverse ++ [v] := by
    have h := Except.ok.inj ((hs.versionsOf_eq hvs).symm.trans hv)
    rw [← List.reverse_reverse vs, h, List.reverse_cons]
  have hrow : v.row ∈ s.versionRows id := hvs ▸ List.mem_map_of_mem List.mem_concat_self
  obtain ⟨hmem, hdocument⟩ := List.mem_filter.1 hrow
  exact ⟨hmem, beq_iff_eq.1 hdocument, hs.live_eq hvs List.getLast?_concat⟩

/-- **A template that is live is read back.** -/
theorem readBack_of_live (hs : s.Recorded) {doc : Document} (hdoc : s.document? id = some doc)
    (ht : doc.template = some t) {older : List Version}
    (hv : s.versionsOf id = .ok (v :: older)) : ReadBack s id t v := by
  obtain ⟨hrow, rfl, -, hbytes⟩ := hs.live_of_newest hv
  have hrecorded : v.template.map (·.bytes) = some t.bytes := by
    rw [← hbytes, templateBytes, hdoc, Option.bind_some, ht]
    rfl
  constructor
  case live => exact ⟨doc, hdoc, ht⟩
  case newest => exact ⟨older, hv⟩
  case recorded => exact hrecorded
  case rendered =>
    intro around past setting request p js hplanned j hj hid
    have hread := document?_of_planned hs.sound hplanned hj
    rw [hid, hdoc] at hread
    have htemplate : templateOf setting j.document = .ok t.bytes := by
      rw [← Option.some.inj hread, templateOf, ht]
    rw [on_renderJob, htemplate, Generation.rendered, htemplate, hid]
    rfl
  case restored =>
    intro past later signature note
    obtain ⟨hs', hp⟩ := advances_runAll later ⟨s, past⟩ hs
    obtain ⟨r, s', doc', -, hrestore, -, hdoc', ht'⟩ :=
      restore_recorded hs' (hp.subset hrow) signature note
    exact ⟨r, s', doc', hrestore, hdoc', by rw [ht', hrecorded]⟩

/-! ## Templates that were edited -/

theorem TemplateFile.present?_eq_self (ht : t.bytes.isEmpty = false) :
    TemplateFile.present? (some t) = some t := by
  simp [TemplateFile.present?, ht]

/-- A template that an edit stored is read back. -/
theorem readBack_of_saveEdit (hs : s.Recorded) (ht : t.bytes.isEmpty = false)
    {rules : Option (List Mapping.Rule)} {signature : Signature} {note : String}
    (h : saveEdit id ⟨some (some t), rules⟩ signature note s = .ok (v, s')) :
    ReadBack s' id t v := by
  have hcommit := (saveEdit_eq_ok hs.sound).1 h
  obtain ⟨doc, hdoc⟩ := Option.isSome_iff_exists.1 hcommit.isSome_document?
  have hlive := hcommit.document?
  rw [hdoc] at hlive
  obtain ⟨older, -, hversions, -⟩ := hcommit.versionsOf hs
  exact readBack_of_live (hs.commit hcommit) hlive (TemplateFile.present?_eq_self ht) hversions

/-! ## Templates that were imported -/

namespace Catalog

/-- The file that an entry names for a document, if it names one. -/
def DocumentEntry.filesFor (d : DocumentEntry) (label : String × String) : List String :=
  if d.label = label then d.template.toList else []

/-- The files that the entries of a pack name for a document. -/
def PackEntry.filesFor (p : PackEntry) (code : String) (label : String × String) : List String :=
  if Text.trim p.code = code then p.documents.flatMap (·.filesFor label) else []

end Catalog

/-- The files that a catalog names for a document, in order. -/
def Catalog.filesFor (catalog : Catalog) (code : String) (label : String × String) :
    List String :=
  catalog.packs.flatMap (·.filesFor code label)

/-- The template of a document that is live, by the code of its pack and its type and variant. -/
def Store.templateAt (s : Store) (code : String) (label : String × String) :
    Option TemplateFile :=
  (s.contentAt code label).bind (·.template)

namespace Catalog

/-- What is live after these files were imported in order: the last of them if it has bytes, and
    what was live before if there are none. -/
structure Leaves (setting : Setting) (paths : List String) (before after : Option TemplateFile) :
    Prop where
  kept : paths = [] → after = before
  last : ∀ path ∈ paths.getLast?, ∀ t, readTemplate setting.read setting.directory path = .ok t →
    t.bytes.isEmpty = false → after = some t

variable {setting : Setting}

theorem Leaves.same {before after : Option TemplateFile} (h : after = before) :
    Leaves setting [] before after := ⟨fun _ => h, nofun⟩

theorem Leaves.append {paths paths' : List String} {before between after : Option TemplateFile}
    (h : Leaves setting paths before between) (h' : Leaves setting paths' between after) :
    Leaves setting (paths ++ paths') before after := by
  rcases paths'.eq_nil_or_concat with rfl | ⟨init, path, rfl⟩
  · rw [List.append_nil, h'.kept rfl]
    exact h
  · refine ⟨by simp, fun path' hlast => h'.last path' ?_⟩
    simpa using hlast

/-- Of an entry that names a file with bytes, these are live afterwards. -/
theorem DocumentEntry.leaves_applied {d : DocumentEntry} {named : Option TemplateFile}
    (hnamed : setting.template d = .ok named) (code : String) (user : Option String)
    (before : Option Content) : Leaves setting d.template.toList (before.bind (·.template))
      (d.applied code user named before).template := by
  unfold Setting.template at hnamed
  unfold applied
  cases hpath : d.template with
  | none =>
    rw [hpath] at hnamed
    obtain rfl : none = named := Except.ok.inj hnamed
    refine .same ?_
    split <;> cases before <;> rfl
  | some path =>
    refine ⟨by simp, fun path' hlast t hread ht => ?_⟩
    obtain rfl : path = path' := by simpa using hlast
    rw [hpath, Option.mapM_some, hread] at hnamed
    obtain rfl : some t = named := Except.ok.inj hnamed
    split
    · exact TemplateFile.present?_eq_self ht
    · next hsame =>
      simp only [Content.differs, Option.isSome_some, Bool.true_and, Bool.or_eq_true,
        bne_iff_ne, not_or, ne_eq, not_not] at hsame
      exact hsame.1.1

section
variable {s s' : Store} {row : PackRow} {code : String}

theorem leaves_importDocument (hs : s.Recorded) (hat : s.packAt code = some row)
    {d : DocumentEntry} {r : Id × Bool}
    (h : importDocument setting row.id d s = (.ok r, s')) (label : String × String) :
    Leaves setting (d.filesFor label) (s.templateAt code label) (s'.templateAt code label) := by
  obtain ⟨⟨named, hnamed, hcontent⟩, hothers⟩ := contentAt_importDocument hs hat h
  unfold DocumentEntry.filesFor templateAt
  split
  · next hlabel =>
    rw [← hlabel, hcontent]
    exact d.leaves_applied hnamed ..
  · next hlabel =>
    refine .same ?_
    rw [hothers code label fun heq => hlabel (congrArg Prod.snd heq).symm]

theorem leaves_importDocuments (hs : s.Recorded) (hat : s.packAt code = some row)
    {ds : List DocumentEntry} {report report' : ImportReport} {ids : List Id}
    (h : importDocuments setting row.id ds report s = (.ok (ids, report'), s'))
    (label : String × String) : Leaves setting (ds.flatMap (·.filesFor label))
      (s.templateAt code label) (s'.templateAt code label) := by
  induction ds generalizing s report ids with
  | nil =>
    obtain ⟨-, rfl⟩ := Run.pure_eq_ok.1 h
    exact .same rfl
  | cons d ds ih =>
    obtain ⟨id, recorded, s₁, ids, hfirst, hrest, -⟩ := importDocuments_cons_eq_ok.1 h
    obtain ⟨hs₁, hpacks⟩ := importDocument_keeps_packs hs hfirst
    rw [List.flatMap_cons]
    exact (leaves_importDocument hs hat hfirst label).append
      (ih hs₁ ((packAt_congr hpacks code).trans hat) hrest)

/-- A document that is not listed keeps its template. -/
theorem templateAt_disableUnlisted (hs : s.Sound) {pack : Id} {listed : List Id} {n : Nat}
    (h : disableUnlisted pack listed s = .ok (n, s')) (code : String)
    (label : String × String) : s'.templateAt code label = s.templateAt code label := by
  obtain ⟨hpacks, hentries⟩ := lookup_disableUnlisted hs h
  unfold templateAt contentAt
  rw [packAt_congr hpacks]
  cases s.packAt code with
  | none => rfl
  | some row =>
    rw [Option.bind_some, Option.bind_some, hentries]
    cases s.entryAt (row.id, label) with
    | none => rfl
    | some e =>
      simp only [Option.map_some, Option.bind_some]
      split <;> rfl

theorem leaves_importPack (hs : s.Recorded) {p : PackEntry} {report report' : ImportReport}
    (h : importPack setting p report s = (.ok report', s')) (code : String)
    (label : String × String) :
    Leaves setting (p.filesFor code label) (s.templateAt code label)
      (s'.templateAt code label) := by
  unfold PackEntry.filesFor
  split
  · next hcode =>
    subst hcode
    obtain ⟨-, pack, s₁, listed, between, s₂, n, hpack, hdocuments, hdropped, -⟩ :=
      importPack_eq_ok.1 h
    have hs₁ := hs.quiet (quiet_upsertPack _ _ _ _ hpack)
    have hbefore : s₁.templateAt (Text.trim p.code) label = s.templateAt (Text.trim p.code) label :=
      congrArg (Option.bind · _) (contentAt_upsertPack hs.sound hpack _ label)
    have hat := (lookup_upsertPack hpack).1
    rw [templateAt_disableUnlisted (importDocuments_frame hs₁.sound hdocuments).sound hdropped,
      ← hbefore]
    exact leaves_importDocuments hs₁ hat hdocuments label
  · next hcode =>
    obtain ⟨hs', hpacks, id, hat, hentries⟩ := importPack_frame hs.sound h
    refine .same (congrArg (Option.bind · _) ?_)
    refine contentAt_congr (hpacks code (Ne.symm hcode)) fun row hrow => hentries _ ?_
    exact hs'.id_ne_of_code_ne ((hpacks code (Ne.symm hcode)).trans hrow) hat (Ne.symm hcode)

/-- **Which template an import leaves.** -/
theorem leaves_importPacks (hs : s.Recorded) {ps : List PackEntry} {report report' : ImportReport}
    (h : importPacks setting ps report s = (.ok report', s')) (code : String)
    (label : String × String) :
    Leaves setting (ps.flatMap (·.filesFor code label)) (s.templateAt code label)
      (s'.templateAt code label) := by
  induction ps generalizing s report with
  | nil =>
    obtain ⟨-, rfl⟩ := Run.pure_eq_ok.1 h
    exact .same rfl
  | cons p ps ih =>
    obtain ⟨between, s₁, hp, hps⟩ := importPacks_cons_eq_ok.1 h
    have hs₁ := (advances_importPack setting p report).recorded hs hp
    rw [List.flatMap_cons]
    exact (leaves_importPack hs hp code label).append (ih hs₁ hps)

end

theorem mem_filesFor {catalog : Catalog} {code : String} {label : String × String}
    {path : String} (h : path ∈ catalog.filesFor code label) : ∃ p ∈ catalog.packs,
      ∃ d ∈ p.documents, Text.trim p.code = code ∧ d.label = label := by
  obtain ⟨p, hp, hpath⟩ := List.mem_flatMap.1 h
  unfold PackEntry.filesFor at hpath
  split at hpath
  · next hcode =>
    obtain ⟨d, hd, hpath⟩ := List.mem_flatMap.1 hpath
    unfold DocumentEntry.filesFor at hpath
    split at hpath
    · next hlabel => exact ⟨p, hp, d, hd, hcode, hlabel⟩
    · cases hpath
  · cases hpath

end Catalog

/-- The document of this name is there, and its template is read back. -/
def Store.ReadBackAt (s : Store) (code : String) (label : String × String) (t : TemplateFile) :
    Prop :=
  ∃ doc v, s.document? doc.id = some doc ∧ doc.packCode = code ∧
    (doc.type, doc.variant) = label ∧ ReadBack s doc.id t v

theorem readBackAt_of_content (hs : s.Recorded) {code : String} {label : String × String}
    {c : Content} (hc : s.contentAt code label = some c) (ht : c.template = some t)
    (hhistory : c.history ≠ []) : s.ReadBackAt code label t := by
  obtain ⟨row, hat, hentry⟩ := Option.bind_eq_some_iff.1 hc
  obtain ⟨e, he, rfl⟩ := Option.map_eq_some_iff.1 hentry
  have hdoc := document?_of_entryAt hs.sound hat he
  rw [show e.template = some t from ht] at hdoc
  obtain ⟨vs, hvs⟩ := hs.exists_versions e.row.id
  have hversions := hs.versionsOf_eq hvs
  cases hlist : vs.reverse with
  | nil =>
    obtain rfl : vs = [] := List.reverse_eq_nil_iff.1 hlist
    refine absurd ?_ hhistory
    rw [Entry.content, (row_of_entryAt he).2.2]
    exact congrArg (List.map _) hvs
  | cons v older =>
    rw [hlist] at hversions
    exact ⟨⟨e.row.id, _, _, _, _, _, _, _⟩, v, hdoc, rfl, rfl,
      readBack_of_live hs hdoc rfl hversions⟩

/-- A template that an import stored is read back. -/
theorem readBackAt_of_importCatalog (hs : s.Recorded) (ht : t.bytes.isEmpty = false)
    {setting : Catalog.Setting} {catalog : Catalog} {report : ImportReport}
    (h : Catalog.importCatalog setting catalog s = (.ok report, s')) {code path : String}
    {label : String × String} (hlast : (catalog.filesFor code label).getLast? = some path)
    (hread : Catalog.readTemplate setting.read setting.directory path = .ok t) :
    s'.ReadBackAt code label t := by
  have hs' := (Catalog.advances_importCatalog setting catalog).recorded hs h
  obtain ⟨p, hp, d, hd, rfl, rfl⟩ := Catalog.mem_filesFor (List.mem_of_getLast? hlast)
  obtain ⟨c, hc, hhistory⟩ := Catalog.versioned_importPacks hs h p hp d hd
  have htemplate := (Catalog.leaves_importPacks hs h _ _).last path hlast t hread ht
  rw [templateAt, hc, Option.bind_some] at htemplate
  exact readBackAt_of_content hs' hc htemplate hhistory

/-! ## Templates that were stored -/

/-- **Templates are read back as they were stored**, if they have bytes, whatever was done to the
    store before: by an edit, or by an import that names the file last for a document. -/
theorem templates_are_read_back (ops : List Operation) (t : TemplateFile)
    (ht : t.bytes.isEmpty = false) :
    let s := (World.start.runAll ops).store
    (∀ id rules signature note v s',
      saveEdit id ⟨some (some t), rules⟩ signature note s = .ok (v, s') → ReadBack s' id t v) ∧
    ∀ (setting : Catalog.Setting) (catalog : Catalog) report s' code label path,
      Catalog.importCatalog setting catalog s = (.ok report, s') →
      (catalog.filesFor code label).getLast? = some path →
      Catalog.readTemplate setting.read setting.directory path = .ok t →
      s'.ReadBackAt code label t := by
  have hs := recorded_runAll ops
  exact ⟨fun _ _ _ _ _ _ h => readBack_of_saveEdit hs ht h,
    fun _ _ _ _ _ _ _ h hlast hread => readBackAt_of_importCatalog hs ht h hlast hread⟩

/-- A catalog that lists the sample document twice, with two files. -/
def Catalog.sampleTwice : Catalog :=
  ⟨[⟨"A", "", true, .a4, none, [⟨"note", "", 1, true, some "first.xlsx", []⟩,
    ⟨"note", "", 1, true, some "second.xlsx", []⟩]⟩]⟩

/-- The second file of the catalog is read back, and so it is when it comes from an edit. -/
theorem sample_templates_are_read_back :
    let s := (World.start.runAll [sampleImport]).store
    let t : TemplateFile := ⟨"second.xlsx", ⟨#[80, 75]⟩⟩
    (∃ v s', saveEdit 1 ⟨some (some t), none⟩ sampleSignature "" s = .ok (v, s') ∧
      ReadBack s' 1 t v) ∧
    ∃ report s', Catalog.importCatalog Catalog.sampleSetting Catalog.sampleTwice s = (.ok report, s') ∧
      s'.ReadBackAt "A" ("note", "") t := by
  intro s t
  obtain ⟨hedits, himports⟩ := templates_are_read_back [sampleImport] t rfl
  have hedit : (saveEdit 1 ⟨some (some t), none⟩ sampleSignature "" s).isOk = true := by
    decide +kernel
  have hreport : (Catalog.importCatalog Catalog.sampleSetting Catalog.sampleTwice s).1 =
      .ok ⟨1, 2, 2, 0, 0⟩ := by
    decide +kernel
  constructor
  · cases h : saveEdit 1 ⟨some (some t), none⟩ sampleSignature "" s with
    | error e =>
      rw [h] at hedit
      cases hedit
    | ok r =>
      obtain ⟨v, s'⟩ := r
      exact ⟨v, s', rfl, hedits _ _ _ _ _ _ h⟩
  · cases h : Catalog.importCatalog Catalog.sampleSetting Catalog.sampleTwice s with
    | mk result s' =>
      rw [h] at hreport
      obtain rfl : result = .ok ⟨1, 2, 2, 0, 0⟩ := hreport
      refine ⟨_, s', rfl, himports _ _ _ _ _ _ "second.xlsx" h (by decide +kernel) ?_⟩
      cbv

/-- A template without bytes is stored as none, and so it is in the version; of two files of a
    document only the last is live. -/
theorem some_templates_are_not_read_back :
    let s := (World.start.runAll [sampleImport]).store
    let edited := saveEdit 1 ⟨some (some ⟨"t.xlsx", .empty⟩), none⟩ sampleSignature "" s
    let imported := Catalog.importCatalog Catalog.sampleSetting Catalog.sampleTwice s
    edited.toOption.map (fun (v, s') => (v.template, (s'.document? 1).map (·.template))) =
        some (none, some none) ∧
      (imported.2.document? 1).map (·.template) = some (some ⟨"second.xlsx", ⟨#[80, 75]⟩⟩) := by
  decide +kernel

end Waybill
