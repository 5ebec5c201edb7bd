/-
  An import that was interrupted and is run again.

  An attempt that fails leaves some packs and documents as the catalog says and the others as they
  were.  Running the import again, with the files that were missing, finds the former unchanged and
  does the rest.

  * `target` is what an import makes of the content of a document, `packTarget` of a pack;
  * `Partway`: every pack and document is as it was, or as it is to be;
  * `Setting.Before` is a setting with fewer files, `Attempts` are imports by such settings;
  * `Alike`: packs and documents are the same, but for numbers and times.

  Statements: `succeeds_iff` (what an import needs to succeed, which is nothing of the store),
  `Steps.partway` (an import only goes towards its target), `Imported.reaches` (one that succeeds
  gets there), and `interrupted_import_resumes`.
-/
import Waybill.Proofs.Catalog.Steps

namespace Waybill

open Waybill.History Waybill.Store

/-! ## Packs -/

/-- A pack, but for its number in the store. -/
def Store.packView (s : Store) (code : String) : Option PackRow :=
  (s.packAt code).map fun row => { row with id := 0 }

namespace Catalog

variable {setting earlier : Setting} {ps : List PackEntry} {s s₁ s' t : Store}

/-! ## When an import succeeds -/

/-- What a catalog has to be like: its packs have codes, its templates can be read, and its rules
    are let in. -/
structure Accepted (setting : Setting) (ps : List PackEntry) : Prop where
  codes : ∀ p ∈ ps, (Text.trim p.code).isEmpty = false
  templates : ∀ p ∈ ps, ∀ d ∈ p.documents, ∃ named, setting.template d = .ok named
  rules : ∀ p ∈ ps, ∀ d ∈ p.documents, checkRules d.rules = .ok ()

theorem accepted_importDocument (hs : s.Recorded) {pack : Id} {d : DocumentEntry} {r : Id × Bool}
    (h : importDocument setting pack d s = (.ok r, s')) :
    (∃ named, setting.template d = .ok named) ∧ checkRules d.rules = .ok () := by
  obtain ⟨named, live, s₁, hnamed, hupsert, -, -⟩ := importDocument_eq_ok.1 h
  refine ⟨⟨named, hnamed⟩, ?_⟩
  cases hrules : checkRules d.rules with
  | ok => rfl
  | error offence =>
    cases (importDocument_of_rejected hs (.offending hnamed hrules hupsert)).symm.trans h

theorem accepted_importDocuments (hs : s.Recorded) {pack : Id} {ds : List DocumentEntry}
    {report report' : ImportReport} {ids : List Id}
    (h : importDocuments setting pack ds report s = (.ok (ids, report'), s')) :
    ∀ d ∈ ds, (∃ named, setting.template d = .ok named) ∧ checkRules d.rules = .ok () := by
  induction ds generalizing s report ids with
  | nil => simp
  | cons d ds ih =>
    obtain ⟨id, recorded, s₁, ids, hfirst, hrest, -⟩ := importDocuments_cons_eq_ok.1 h
    have hs₁ := (importDocument_keeps_packs hs hfirst).1
    exact List.forall_mem_cons.2 ⟨accepted_importDocument hs hfirst, ih hs₁ hrest⟩

theorem accepted_importPacks (hs : s.Recorded) {report report' : ImportReport}
    (h : importPacks setting ps report s = (.ok report', s')) : Accepted setting ps := by
  induction ps generalizing s report with
  | nil => exact ⟨by simp, by simp, by simp⟩
  | cons p ps ih =>
    obtain ⟨between, s₁, hp, hps⟩ := importPacks_cons_eq_ok.1 h
    obtain ⟨hcode, -⟩ := importPack_eq_ok.1 hp
    obtain ⟨row, s₂, _, _, _, s₃, hpack, -, hdocuments, hdropped⟩ :=
      stages_of_importPack hs (List.mem_singleton_self p) hp
    have hs₂ := hpack.recorded hs
    have hdocument := accepted_importDocuments hs₂ hdocuments
    have hs₁ := (advances_importPack setting p report).recorded hs hp
    obtain ⟨hcodes, htemplates, hrules⟩ := ih hs₁ hps
    exact ⟨List.forall_mem_cons.2 ⟨hcode, hcodes⟩,
      List.forall_mem_cons.2 ⟨fun d hd => (hdocument d hd).1, htemplates⟩,
      List.forall_mem_cons.2 ⟨fun d hd => (hdocument d hd).2, hrules⟩⟩

theorem ReachedIn.mem {pack : Id} {d : DocumentEntry} {ds : List DocumentEntry}
    (h : ReachedIn setting pack d t ds s) : d ∈ ds := by
  induction h with
  | here => exact List.mem_cons_self
  | later _ _ ih => exact List.mem_cons_of_mem _ ih

theorem Reached.mem {pack : Id} {d : DocumentEntry} (h : Reached setting pack d t ps s) :
    ∃ p ∈ ps, d ∈ p.documents := by
  induction h with
  | here _ _ _ documents => exact ⟨_, List.mem_cons_self, documents.mem⟩
  | later _ _ ih =>
    obtain ⟨p, hp, hd⟩ := ih
    exact ⟨p, List.mem_cons_of_mem _ hp, hd⟩

/-- **Whether an import succeeds is told from the catalog and its files**, not from the store. -/
theorem succeeds_iff (hs : s.Recorded) (report : ImportReport) :
    (∃ report' s', importPacks setting ps report s = (.ok report', s')) ↔ Accepted setting ps := by
  constructor
  · rintro ⟨report', s', h⟩
    exact accepted_importPacks hs h
  · rintro ⟨hcodes, htemplates, hrules⟩
    rcases himport : importPacks setting ps report s with ⟨e | report', s'⟩
    · obtain ⟨-, p, hp, hcode⟩ | ⟨pack, d, t, hreached, hrejected⟩ := exists_rejected hs himport
      · cases (hcodes p hp).symm.trans hcode
      · obtain ⟨p, hp, hd⟩ := hreached.mem
        cases hrejected with
        | unreadable template =>
          obtain ⟨named, hnamed⟩ := htemplates p hp d hd
          cases hnamed.symm.trans template
        | offending _ rules _ => cases (hrules p hp d hd).symm.trans rules
    · exact ⟨report', s', rfl⟩

/-! ## What an import goes towards -/

/-- The template that an entry names, if its file is there. -/
def Setting.named (setting : Setting) (d : DocumentEntry) : Option TemplateFile :=
  match setting.template d with
  | .ok named => named
  | .error _ => none

/-- What an import makes of a pack. -/
def packTarget (ps : List PackEntry) (code : String) (before : Option PackRow) : Option PackRow :=
  match ps.find? fun p => Text.trim p.code == code with
  | some p => some (p.wanted.row 0)
  | none => before

/-- What an import makes of the content of a document. -/
def target (setting : Setting) (ps : List PackEntry) (code : String) (label : String × String)
    (before : Option Content) : Option Content :=
  match ps.find? fun p => Text.trim p.code == code with
  | some p =>
    match p.documents.find? fun d => d.label == label with
    | some d => some (d.applied code setting.signature.user (setting.named d) before)
    | none => before.map Content.disabled
  | none => before

/-- A content that is as an entry says stays as it is. -/
theorem DocumentEntry.applied_of_same {d : DocumentEntry} {code : String} {user : Option String}
    {named : Option TemplateFile} {c : Content} (hsequence : c.sequence = d.sequence)
    (henabled : c.enabled = d.enabled) (hsame : c.differs named d.rules = false) :
    d.applied code user named (some c) = c := by
  have hplaced : d.placed (some c) = c := by
    rw [placed, ← hsequence, ← henabled]
    rfl
  rw [applied, hplaced, hsame]
  rfl

/-- What importing an entry leaves is as the entry says. -/
theorem DocumentEntry.differs_applied {d : DocumentEntry} {code : String} {user : Option String}
    {named : Option TemplateFile} (hfile : ∀ file ∈ named, file.bytes.isEmpty = false)
    (before : Option Content) : (d.applied code user named before).differs named d.rules = false := by
  unfold applied
  split
  · have hnamed : TemplateFile.present? named = named := by
      cases named with
      | none => rfl
      | some file => simp [TemplateFile.present?, hfile file rfl]
    simp only [Content.differs, Content.recorded, Content.edited, hnamed]
    cases named <;> simp
  · next hsame => exact Bool.eq_false_iff.2 hsame

/-- **Importing an entry twice is importing it once.** -/
theorem DocumentEntry.applied_applied {d : DocumentEntry} {code : String} {user : Option String}
    {named : Option TemplateFile} (hfile : ∀ file ∈ named, file.bytes.isEmpty = false)
    (before : Option Content) :
    d.applied code user named (some (d.applied code user named before)) =
      d.applied code user named before := by
  refine applied_of_same ?_ ?_ (differs_applied hfile before) <;>
  · unfold applied
    split <;> rfl

section
variable {α κ : Type} [BEq κ] [LawfulBEq κ] {key : α → κ} {l : List α}

theorem find?_of_nodup (h : (l.map key).Nodup) {a : α} (ha : a ∈ l) :
    (l.find? fun b => key b == key a) = some a :=
  Table.find?_key ha fun _ hb => List.inj_on_of_nodup_map h hb ha

theorem find?_of_not_mem {k : κ} (h : k ∉ l.map key) : (l.find? fun b => key b == k) = none :=
  List.find?_eq_none.2 fun _ hb heq => h (List.mem_map.2 ⟨_, hb, beq_iff_eq.1 heq⟩)

end

section
variable {label : String × String} {p : PackEntry}
  (hcodes : (ps.map (Text.trim ·.code)).Nodup) (hp : p ∈ ps)
include hcodes hp

theorem packTarget_of_listed (before : Option PackRow) :
    packTarget ps (Text.trim p.code) before = some (p.wanted.row 0) := by
  rw [packTarget, find?_of_nodup hcodes hp]

theorem target_of_listed (hlabels : (p.documents.map DocumentEntry.label).Nodup)
    {d : DocumentEntry} (hd : d ∈ p.documents) (before : Option Content) :
    target setting ps (Text.trim p.code) d.label before =
      some (d.applied (Text.trim p.code) setting.signature.user (setting.named d) before) := by
  rw [target, find?_of_nodup hcodes hp]
  dsimp only
  rw [find?_of_nodup hlabels hd]

theorem target_of_unlisted (hlabel : label ∉ p.documents.map DocumentEntry.label)
    (before : Option Content) :
    target setting ps (Text.trim p.code) label before = before.map Content.disabled := by
  rw [target, find?_of_nodup hcodes hp]
  dsimp only
  rw [find?_of_not_mem hlabel]

end

theorem packTarget_packTarget (code : String) (before : Option PackRow) :
    packTarget ps code (packTarget ps code before) = packTarget ps code before := by
  unfold packTarget
  split <;> rfl

theorem named_filled {ds : List DocumentEntry} (hfiles : setting.Filled ds) {d : DocumentEntry}
    (hd : d ∈ ds) : ∀ file ∈ setting.named d, file.bytes.isEmpty = false := by
  intro file hfile
  refine hfiles d hd file ?_
  unfold Setting.named at hfile
  cases htemplate : setting.template d with
  | ok named =>
    rw [htemplate] at hfile
    rw [show named = some file from hfile]
  | error e =>
    rw [htemplate] at hfile
    cases hfile

/-- **What is as it is to be stays so.** -/
theorem target_target (hfiles : ∀ p ∈ ps, setting.Filled p.documents) (code : String)
    (label : String × String) (before : Option Content) :
    target setting ps code label (target setting ps code label before) =
      target setting ps code label before := by
  unfold target
  cases hp : ps.find? fun p => Text.trim p.code == code with
  | none => rfl
  | some p =>
    dsimp only
    cases hd : p.documents.find? fun d => d.label == label with
    | none => exact Option.map_map ..
    | some d =>
      have hfile := named_filled (hfiles p (List.mem_of_find?_eq_some hp))
        (List.mem_of_find?_eq_some hd)
      exact congrArg some (DocumentEntry.applied_applied hfile before)

/-! ## Partway -/

/-- Every pack and every document is as it was, or as an import makes it. -/
structure Partway (setting : Setting) (ps : List PackEntry) (s t : Store) : Prop where
  packs : ∀ code, t.packView code = s.packView code ∨
    t.packView code = packTarget ps code (s.packView code)
  contents : ∀ code label, t.contentAt code label = s.contentAt code label ∨
    t.contentAt code label = target setting ps code label (s.contentAt code label)

theorem Partway.refl (setting : Setting) (ps : List PackEntry) (s : Store) :
    Partway setting ps s s := ⟨fun _ => Or.inl rfl, fun _ _ => Or.inl rfl⟩

theorem Partway.trans (hfiles : ∀ p ∈ ps, setting.Filled p.documents)
    (h : Partway setting ps s s₁) (h' : Partway setting ps s₁ t) : Partway setting ps s t where
  packs code := by
    rcases h.packs code with h | h <;> rcases h'.packs code with h' | h' <;> rw [h', h]
    · exact Or.inl rfl
    · exact Or.inr rfl
    · exact Or.inr rfl
    · exact Or.inr (packTarget_packTarget _ _)
  contents code label := by
    rcases h.contents code label with h | h <;> rcases h'.contents code label with h' | h' <;>
      rw [h', h]
    · exact Or.inl rfl
    · exact Or.inr rfl
    · exact Or.inr rfl
    · exact Or.inr (target_target hfiles _ _ _)

/-- A setting with some of the files of another, for the same user. -/
structure Setting.Before (earlier setting : Setting) : Prop where
  files : ∀ path bytes, earlier.read path = .ok bytes → setting.read path = .ok bytes
  directory : earlier.directory = setting.directory
  user : earlier.signature.user = setting.signature.user

theorem Setting.Before.template (h : earlier.Before setting) {d : DocumentEntry}
    {named : Option TemplateFile} (hnamed : earlier.template d = .ok named) :
    setting.template d = .ok named := by
  unfold Setting.template at hnamed ⊢
  rw [← h.directory]
  generalize d.template = path at hnamed ⊢
  cases path with
  | none => exact hnamed
  | some path =>
    rw [Option.mapM_some] at hnamed ⊢
    unfold readTemplate at hnamed ⊢
    dsimp only at hnamed ⊢
    cases hread : earlier.read (Files.joined earlier.directory path) with
    | error detail =>
      rw [hread] at hnamed
      cases hnamed
    | ok bytes =>
      rw [h.files _ _ hread]
      rwa [hread] at hnamed

theorem packView_congr {code : String} (h : s'.packAt code = s.packAt code) :
    s'.packView code = s.packView code := by
  unfold packView
  rw [h]

/-- A step of an import goes towards what the import is to make. -/
theorem Step.partway (h : Step earlier ps s s') (hs : s.Recorded) (hbefore : earlier.Before setting)
    (hcodes : (ps.map (Text.trim ·.code)).Nodup)
    (hlabels : ∀ p ∈ ps, (p.documents.map DocumentEntry.label).Nodup)
    (hrules : ∀ p ∈ ps, ∀ d ∈ p.documents, checkRules d.rules = .ok ()) :
    Partway setting ps s s' := by
  cases h with
  | @pack p r mem upsert =>
    obtain ⟨hat, -, hothers, -⟩ := lookup_upsertPack upsert
    refine ⟨fun code => ?_, fun code label => Or.inl (contentAt_upsertPack hs.sound upsert code label)⟩
    by_cases hcode : code = Text.trim p.code
    · subst hcode
      rw [packTarget_of_listed hcodes mem]
      exact Or.inr (congrArg _ hat)
    · exact Or.inl (packView_congr (hothers code hcode))
  | @document p d row r mem listed pack imported =>
    obtain ⟨⟨named, hnamed, hcontent⟩, hothers⟩ := contentAt_importDocument hs pack imported
    have hpacks := (importDocument_keeps_packs hs imported).2
    refine ⟨fun code => Or.inl (packView_congr (packAt_congr hpacks code)), fun code label => ?_⟩
    by_cases hkey : (code, label) = (Text.trim p.code, d.label)
    · obtain ⟨rfl, rfl⟩ := Prod.mk.injEq .. ▸ hkey
      have htemplate : setting.named d = named := by
        rw [Setting.named, hbefore.template hnamed]
      rw [hcontent, target_of_listed hcodes mem (hlabels p mem) listed, htemplate, hbefore.user]
      exact Or.inr rfl
    · exact Or.inl (hothers code label hkey)
  | @rejected p d row e mem listed pack rejected =>
    cases rejected with
    | unreadable => exact .refl setting ps s
    | offending _ rules _ => cases (hrules p mem d listed).symm.trans rules
  | @dropped p row listed n mem pack ids dropped =>
    have hpacks := (lookup_disableUnlisted hs.sound dropped).1
    refine ⟨fun code => Or.inl (packView_congr (packAt_congr hpacks code)), fun code label => ?_⟩
    have hcontent := contentAt_disableUnlisted hs.sound pack ids dropped code label
    split at hcontent
    · next hdrop =>
      obtain ⟨rfl, hlabel⟩ := hdrop
      rw [hcontent, target_of_unlisted hcodes mem hlabel]
      exact Or.inr rfl
    · exact Or.inl hcontent

/-- **An import only goes towards what it is to make**, however it ends. -/
theorem Steps.partway (h : Steps earlier ps s s') (hs : s.Recorded)
    (hbefore : earlier.Before setting) (hcodes : (ps.map (Text.trim ·.code)).Nodup)
    (hlabels : ∀ p ∈ ps, (p.documents.map DocumentEntry.label).Nodup)
    (hfiles : ∀ p ∈ ps, setting.Filled p.documents)
    (hrules : ∀ p ∈ ps, ∀ d ∈ p.documents, checkRules d.rules = .ok ()) :
    Partway setting ps s s' := by
  induction h with
  | refl => exact .refl setting ps s
  | tail steps step ih =>
    exact ih.trans hfiles (step.partway (Steps.recorded steps hs) hbefore hcodes hlabels hrules)

/-! ## What an import reaches -/

/-- A document that is as the catalog says has the content that an import makes of it. -/
theorem Described.applied {d : DocumentEntry} {before : Option Entry} {e : Entry}
    (h : Described setting d before e) (code : String) (user : Option String) :
    d.applied code user (setting.named d) (some e.content) = e.content := by
  refine DocumentEntry.applied_of_same h.sequence h.enabled ?_
  obtain ⟨named, hnamed, htemplate⟩ := h.template
  have hrules : e.content.rules = inSequence (·.sequence) (Mapping.Rule.normalizedAll d.rules) :=
    h.rules
  have hhistory : e.content.history.isEmpty = false := by
    simpa [Entry.content] using h.versions
  have hsame : (named.isSome && e.content.template != named) = false := by
    have htemplate : e.content.template = _ := htemplate
    rw [htemplate]
    cases named <;> simp
  rw [Content.differs, Setting.named, hnamed, hrules, hhistory, hsame]
  simp

/-- **An import that succeeds reaches what it is to make.** -/
theorem Imported.reaches (h : Imported setting ps s s')
    (hpartway : Partway setting ps s s') (hcodes : (ps.map (Text.trim ·.code)).Nodup)
    (hlabels : ∀ p ∈ ps, (p.documents.map DocumentEntry.label).Nodup) :
    (∀ code, s'.packView code = packTarget ps code (s.packView code)) ∧
      ∀ code label,
        s'.contentAt code label = target setting ps code label (s.contentAt code label) := by
  constructor
  · intro code
    by_cases hcode : code ∈ ps.map (Text.trim ·.code)
    · obtain ⟨p, hp, rfl⟩ := List.mem_map.1 hcode
      obtain ⟨id, hmatches⟩ := h.packs p hp
      rw [packTarget_of_listed hcodes hp, packView, hmatches.pack]
      rfl
    · rw [packTarget, find?_of_not_mem hcode]
      exact packView_congr (h.otherPacks code hcode)
  · intro code label
    refine (hpartway.contents code label).elim (fun hsame => ?_) id
    by_cases hcode : code ∈ ps.map (Text.trim ·.code)
    · obtain ⟨p, hp, rfl⟩ := List.mem_map.1 hcode
      obtain ⟨id, hmatches⟩ := h.packs p hp
      have hcontent := contentAt_eq hmatches.pack label
      rw [← hsame]
      by_cases hlabel : label ∈ p.documents.map DocumentEntry.label
      · obtain ⟨d, hd, rfl⟩ := List.mem_map.1 hlabel
        obtain ⟨e, he, hdescribed⟩ := hmatches.listed d hd
        have hentry : s'.entryAt ((p.wanted.row id).id, d.label) = some e := he
        rw [target_of_listed hcodes hp (hlabels p hp) hd, hcontent, hentry, Option.map_some,
          hdescribed.applied]
      · have hdropped : s'.entryAt ((p.wanted.row id).id, label) = _ :=
          hmatches.dropped label.1 label.2 hlabel
        rw [target_of_unlisted hcodes hp hlabel, hcontent, hdropped]
        simp only [Option.map_map]
        rfl
    · rw [target, find?_of_not_mem hcode]
      exact hsame

/-! ## Interrupted imports -/

/-- Imports of a catalog with some of its files, one after the other, whether they succeed or not. -/
inductive Attempts (setting : Setting) (catalog : Catalog) (s : Store) : Store → Prop
  | none : Attempts setting catalog s s
  | more {earlier : Setting} {t s' : Store} {result : Except CatalogError ImportReport}
    (before : Attempts setting catalog s t) (files : earlier.Before setting)
    (attempt : importCatalog earlier catalog t = (result, s')) : Attempts setting catalog s s'

/-- Packs and documents are the same, with their templates, rules and versions, but for the numbers
    that the store gave and for the times of versions. -/
structure Alike (s t : Store) : Prop where
  packs : ∀ code, t.packView code = s.packView code
  documents : ∀ code label, t.contentAt code label = s.contentAt code label

theorem Attempts.recorded {catalog : Catalog} (h : Attempts setting catalog s t)
    (hs : s.Recorded) : t.Recorded := by
  induction h with
  | none => exact hs
  | @more earlier t s' result _ _ attempt ih =>
    exact (advances_importCatalog earlier catalog).recorded ih attempt

section
variable {catalog : Catalog} (hcodes : (catalog.packs.map (Text.trim ·.code)).Nodup)
  (hlabels : ∀ p ∈ catalog.packs, (p.documents.map DocumentEntry.label).Nodup)
  (hfiles : ∀ p ∈ catalog.packs, setting.Filled p.documents)
include hcodes hlabels hfiles

/-- Interrupted imports only go towards what the import is to make. -/
theorem Attempts.partway (h : Attempts setting catalog s t) (hs : s.Recorded)
    (haccepted : Accepted setting catalog.packs) : Partway setting catalog.packs s t := by
  induction h with
  | none => exact .refl setting catalog.packs s
  | @more earlier t s' result before files attempt ih =>
    have ht := before.recorded hs
    have hsteps := steps_importPacks earlier ht catalog.packs (fun _ hp => hp) .empty
    rw [show importPacks earlier catalog.packs .empty t = (result, s') from attempt] at hsteps
    exact ih.trans hfiles (hsteps.partway ht files hcodes hlabels hfiles haccepted.rules)

/-- What an import that succeeds makes, wherever it starts. -/
theorem reaches_of_importCatalog (hs : s.Recorded) {report : ImportReport}
    (h : importCatalog setting catalog s = (.ok report, s')) :
    (∀ code, s'.packView code = packTarget catalog.packs code (s.packView code)) ∧
      ∀ code label, s'.contentAt code label =
        target setting catalog.packs code label (s.contentAt code label) := by
  have haccepted := accepted_importPacks hs h
  have hsteps := steps_importPacks setting hs catalog.packs (fun _ hp => hp) .empty
  rw [show importPacks setting catalog.packs .empty s = (.ok report, s') from h] at hsteps
  have hbefore : setting.Before setting := ⟨fun _ _ h => h, rfl, rfl⟩
  exact (importPacks_ok hs.sound hcodes hlabels hfiles h).2.reaches
    (hsteps.partway hs hbefore hcodes hlabels hfiles haccepted.rules) hcodes hlabels

/-- Two imports that succeed, one of them after attempts that were interrupted, leave the same. -/
theorem Attempts.alike (h : Attempts setting catalog s t) (hs : s.Recorded)
    {signature : Signature} (huser : signature.user = setting.signature.user)
    {report report' : ImportReport} {u : Store}
    (hresumed : importCatalog setting catalog t = (.ok report, s'))
    (hdirect : importCatalog { setting with signature } catalog s = (.ok report', u)) :
    Alike u s' := by
  have ht := h.recorded hs
  have hpartway := h.partway hcodes hlabels hfiles hs (accepted_importPacks ht hresumed)
  obtain ⟨hpacks, hcontents⟩ := reaches_of_importCatalog hcodes hlabels hfiles ht hresumed
  have hfiles' : ∀ p ∈ catalog.packs, ({ setting with signature } : Setting).Filled p.documents :=
    hfiles
  obtain ⟨hpacks', hcontents'⟩ := reaches_of_importCatalog hcodes hlabels hfiles' hs hdirect
  have htarget : target { setting with signature } = target setting := by
    unfold target
    rw [huser]
    rfl
  refine ⟨fun code => ?_, fun code label => ?_⟩
  · rw [hpacks, hpacks']
    rcases hpartway.packs code with h | h <;> rw [h]
    exact packTarget_packTarget _ _
  · rw [hcontents, hcontents', htarget]
    rcases hpartway.contents code label with h | h <;> rw [h]
    exact target_target hfiles _ _ _

end

/-- **An interrupted import is resumed by running it again.**  It is said of every store that
    operations lead to.  After attempts that lacked some of the files, whatever they left, the
    last import succeeds exactly if it would have succeeded at once, and then it leaves packs and
    documents as it would have left them, but for numbers and times. -/
theorem interrupted_import_resumes (ops : List Operation) (setting : Setting) (catalog : Catalog)
    (signature : Signature) (huser : signature.user = setting.signature.user) {t : Store}
    (hcodes : (catalog.packs.map (Text.trim ·.code)).Nodup)
    (hlabels : ∀ p ∈ catalog.packs, (p.documents.map DocumentEntry.label).Nodup)
    (hfiles : ∀ p ∈ catalog.packs, setting.Filled p.documents)
    (hattempts : Attempts setting catalog (Generation.World.start.runAll ops).store t) :
    let resumed := importCatalog setting catalog t
    let direct := importCatalog { setting with signature } catalog
      (Generation.World.start.runAll ops).store
    resumed.1.isOk = direct.1.isOk ∧ (resumed.1.isOk = true → Alike direct.2 resumed.2) := by
  have hs := recorded_runAll ops
  generalize (Generation.World.start.runAll ops).store = s at hs hattempts ⊢
  have ht := hattempts.recorded hs
  -- what an import needs to succeed does not depend on who signs it
  have haccepted : Accepted { setting with signature } catalog.packs ↔
      Accepted setting catalog.packs :=
    ⟨fun h => ⟨h.codes, h.templates, h.rules⟩, fun h => ⟨h.codes, h.templates, h.rules⟩⟩
  have hboth : (∃ report s', importCatalog setting catalog t = (.ok report, s')) ↔
      ∃ report s', importCatalog { setting with signature } catalog s = (.ok report, s') :=
    ((succeeds_iff ht .empty).trans haccepted.symm).trans (succeeds_iff hs .empty).symm
  dsimp only
  rcases hresumed : importCatalog setting catalog t with ⟨e | report, s'⟩ <;>
    rcases hdirect : importCatalog { setting with signature } catalog s with ⟨e' | report', u⟩ <;>
    rw [hresumed, hdirect] at hboth
  · exact ⟨rfl, nofun⟩
  · obtain ⟨_, _, h⟩ := hboth.2 ⟨_, _, rfl⟩
    cases h
  · obtain ⟨_, _, h⟩ := hboth.1 ⟨_, _, rfl⟩
    cases h
  · exact ⟨rfl, fun _ => hattempts.alike hcodes hlabels hfiles hs huser hresumed hdirect⟩

/-- A catalog of two packs with a document each. -/
def samplePair : Catalog :=
  ⟨[⟨"A", "", true, .a4, none, [⟨"note", "", 3, true, some "note.xlsx",
      [⟨"Sheet1", "c3", "shipment.reference", "", true, 0⟩]⟩]⟩,
    ⟨"B", "", true, .a4, none, [⟨"invoice", "", 1, true, some "invoice.xlsx", []⟩]⟩]⟩

/-- The sample files without the one of the second pack. -/
def sampleLacking : Setting :=
  { sampleSetting with
    read := fun path =>
      if path = "packs/invoice.xlsx" then .error "not found" else sampleSetting.read path }

/-- The attempt records a version of the first document, and the import that resumes it one of the
    second. -/
theorem sample_interrupted_import_resumes :
    let s := (Generation.World.start.runAll sampleBefore).store
    let attempt := importCatalog sampleLacking samplePair s
    let resumed := importCatalog sampleSetting samplePair attempt.2
    attempt.1 = .error (.unreadable "packs/invoice.xlsx" "not found") ∧
      resumed.1 = .ok ⟨2, 2, 1, 1, 0⟩ ∧
      Alike (importCatalog { sampleSetting with signature := ⟨some "ana", .ofEpoch 60 0⟩ }
        samplePair s).2 resumed.2 := by
  have hresults : (importCatalog sampleLacking samplePair
        (Generation.World.start.runAll sampleBefore).store).1 =
          .error (.unreadable "packs/invoice.xlsx" "not found") ∧
      (importCatalog sampleSetting samplePair (importCatalog sampleLacking samplePair
        (Generation.World.start.runAll sampleBefore).store).2).1 = .ok ⟨2, 2, 1, 1, 0⟩ := by
    decide +kernel
  have hfiles : sampleLacking.Before sampleSetting := by
    refine ⟨fun path bytes h => ?_, rfl, rfl⟩
    dsimp only [sampleLacking] at h
    split at h
    · cases h
    · exact h
  have hattempts : Attempts sampleSetting samplePair
      (Generation.World.start.runAll sampleBefore).store
      (importCatalog sampleLacking samplePair
        (Generation.World.start.runAll sampleBefore).store).2 :=
    .more .none hfiles (Prod.eta _).symm
  have h := interrupted_import_resumes sampleBefore sampleSetting samplePair
    ⟨some "ana", .ofEpoch 60 0⟩ rfl (by decide +kernel) (by decide +kernel)
    (fun p _ => sampleSetting_filled p.documents) hattempts
  exact ⟨hresults.1, hresults.2, h.2 (congrArg Except.isOk hresults.2)⟩

end Catalog

end Waybill
