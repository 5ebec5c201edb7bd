/-
  Entries that are rejected.

  An import stops at the first entry whose template cannot be read or whose rules are not for cells
  of their own.  The template is read before the document is touched, but the rules are checked only
  after it was added or changed: its sequence and its flag already are those of the entry.

  * `Reached`: everything before an entry of a catalog was imported;
  * `Rejected`: the entry fails, and this is what it leaves;
  * `Placing`: the row of a document was added or changed, and nothing else.

  Statements: `importDocument_eq_error` (when an entry fails), `exists_rejected` (an import fails
  nowhere else, a pack without a code apart), `rejection_leaves` (what is left of the document of
  the entry), and `rejected_document_is_changed`.
-/
import Waybill.Proofs.Catalog.Match
import Waybill.Proofs.History.Cells

namespace Waybill

open Waybill.Mapping Waybill.History Waybill.Store Waybill.Files Waybill.Table

/-! ## Actions that do not fail -/

namespace Store

variable {s s' : Store}

theorem exists_upsertPack (p : NewPack) (s : Store) : ∃ r s', upsertPack p s = .ok (r, s') := by
  have hat := packAt_into p s p.code
  rw [if_pos rfl] at hat
  have hread : packByCode? { s with packs := p.into s.packs } p.code =
      .ok (some ⟨((s.packAt p.code).map PackRow.id).getD s.packs.next, p.code, p.name, p.active,
        p.defaultFormat, p.fallbackFormat⟩) := by
    change (packAt { s with packs := p.into s.packs } p.code).mapM readPack = _
    rw [hat, Option.mapM_some, readPack_row]
    rfl
  simp only [upsertPack, Action.get_bind_eq_ok, Action.set_bind_eq_ok]
  exact ⟨_, _, Action.lift_bind_eq_ok.2 ⟨_, hread, rfl⟩⟩

/-- A document of a pack that is there can be added or changed. -/
theorem exists_upsertDocument (hs : s.Sound) {d : NewDocument}
    (hpack : ∃ p ∈ s.packs.rows, p.id = d.pack) : ∃ r s', upsertDocument d s = .ok (r, s') := by
  simp only [upsertDocument, Action.get_bind_eq_ok]
  cases hrow : s.documents.rows.find? d.matches with
  | some row =>
    have hmem : ∃ row' ∈ (s.documents.change d.matches d.onto).rows,
        row'.id = row.id ∧ row'.template = row.template :=
      exists_row_change (f := d.onto) (fun _ => rfl) (fun _ => rfl)
        (List.mem_of_find?_eq_some hrow)
    obtain ⟨row', hrow', hid, -⟩ := hmem
    obtain ⟨r, hr⟩ := Option.isSome_iff_exists.1
      ((hs.changeDocuments d).document?_isSome.2 ⟨row', hrow', hid⟩)
    simp only [Action.set_bind_eq_ok]
    generalize hfound : Store.document? _ row.id = found
    obtain rfl : some r = found := hr.symm.trans hfound
    exact ⟨r, _, rfl⟩
  | none =>
    have hnew : ∀ row ∈ s.documents.rows, row.key ≠ (d.pack, d.type, d.variant) := fun row hmem e =>
      List.find?_eq_none.1 hrow row hmem (NewDocument.matches_iff.2 e)
    obtain ⟨r, hr⟩ := Option.isSome_iff_exists.1
      ((hs.pushDocument hnew hpack).document?_isSome.2 ⟨_, mem_push.2 (Or.inr rfl), rfl⟩)
    have hany : s.packs.rows.any (fun p => p.id == d.pack) = true := by simpa using hpack
    simp only [hany, Bool.not_true, Bool.false_eq_true, if_false, Action.set_bind_eq_ok]
    generalize hfound : Store.document? _ s.documents.next = found
    obtain rfl : some r = found := hr.symm.trans hfound
    exact ⟨r, _, rfl⟩

/-- Documents that are there can be disabled. -/
theorem exists_disableAll {ids : List Id}
    (h : ∀ id ∈ ids, ∃ row ∈ s.documents.rows, row.id = id) :
    ∃ u s', Catalog.disableAll ids s = .ok (u, s') := by
  induction ids generalizing s with
  | nil => exact ⟨(), s, rfl⟩
  | cons id ids ih =>
    obtain ⟨hid, hids⟩ := List.forall_mem_cons.1 h
    let off (row : DocumentRow) : DocumentRow := { row with enabled := false }
    let s₁ : Store := { s with documents := s.documents.change (fun row => row.id == id) off }
    have hset : setEnabled id false s = .ok ((), s₁) := changeDocument_eq_ok.2 ⟨hid, rfl⟩
    have hids₁ : ∀ id ∈ ids, ∃ row ∈ s₁.documents.rows, row.id = id := by
      intro id' hid'
      obtain ⟨row, hrow, rfl⟩ := hids id' hid'
      obtain ⟨row', hrow', hid, -⟩ :=
        exists_row_change (f := off) (fun _ => rfl) (fun _ => rfl) hrow
      exact ⟨row', hrow', hid⟩
    obtain ⟨u, s', hrest⟩ := ih hids₁
    exact ⟨u, s', Action.bind_eq_ok.2 ⟨_, _, hset, hrest⟩⟩

theorem exists_disableUnlisted (s : Store) (pack : Id) (listed : List Id) :
    ∃ n s', Catalog.disableUnlisted pack listed s = .ok (n, s') := by
  have hdropped : ∀ id ∈ ((s.packDocuments pack).filter fun d =>
      d.enabled && !listed.contains d.id).map (·.id), ∃ row ∈ s.documents.rows, row.id = id := by
    intro id hid
    obtain ⟨doc, hdoc, rfl⟩ := List.mem_map.1 hid
    obtain ⟨row, hrow, -, hread⟩ := mem_packDocuments.1 (List.mem_filter.1 hdoc).1
    exact ⟨row, hrow, (of_readDocument? hread).1.symm⟩
  obtain ⟨u, s', hall⟩ := exists_disableAll hdropped
  simp only [Catalog.disableUnlisted, Action.get_bind_eq_ok]
  exact ⟨_, s', Action.bind_eq_ok.2 ⟨u, s', hall, rfl⟩⟩

/-! ## Documents that were placed -/

/-- A document that is not there yet has no rules. -/
theorem Sound.ruleRows_next (hs : s.Sound) : s.ruleRows s.documents.next = [] := by
  have hnone : (s.rules.rows.filter fun row => row.document == s.documents.next) = [] :=
    List.filter_eq_nil_iff.2 fun row hrow => by
      simpa using hs.ruleDocuments.ne_next hs.documents hrow
  rw [ruleRows, hnone, inSequence, List.mergeSort_nil]

/-- A document that is not there yet has no versions. -/
theorem Sound.versionRows_next (hs : s.Sound) : s.versionRows s.documents.next = [] :=
  List.filter_eq_nil_iff.2 fun row hrow => by
    simpa using hs.versionDocuments.ne_next hs.documents hrow

/-- The entry of a document that was added or changed: its sequence and its flag are the ones that
    are wanted; a document that was added has neither a template nor rules nor versions. -/
def NewDocument.placed (d : NewDocument) (id : Id) (before : Option Entry) : Entry :=
  before.elim ⟨d.row id, [], []⟩ fun e => { e with row := d.onto e.row }

/-- The row of a document was added or changed, and nothing else. -/
structure Placing (d : NewDocument) (s s' : Store) : Prop where
  document : s'.entryAt d.key = some (d.placed s.documents.next (s.entryAt d.key))
  others : ∀ k ≠ d.key, s'.entryAt k = s.entryAt k
  tables : s' = { s with documents := s'.documents }

theorem placing_of_upsertDocument (hs : s.Sound) {d : NewDocument} {r : Document}
    (h : upsertDocument d s = .ok (r, s')) : Placing d s s' := by
  obtain ⟨-, hothers, hdocument⟩ := entryAt_upsertDocument hs h
  have htables : s' = { s with documents := s'.documents } := by
    obtain ⟨-, ⟨_, -, -, -, rfl⟩ | ⟨-, -, -, rfl⟩⟩ := upsertDocument_ok h <;> rfl
  refine ⟨?_, hothers, htables⟩
  obtain ⟨e, he, -, hnew⟩ | ⟨hnone, -, hnew⟩ := hdocument
  · rw [hnew, he]
    rfl
  · have hrules : s'.ruleRows s.documents.next = [] := by
      rw [htables]
      exact hs.ruleRows_next
    have hversions : s'.versionRows s.documents.next = [] := by
      rw [htables]
      exact hs.versionRows_next
    rw [hnew, hnone, entryOf]
    exact congrArg some (congrArg₂ (Entry.mk _) hrules hversions)

/-- A document that was placed is as before exactly if it was there and was as wanted. -/
theorem Placing.entryAt_eq_iff {d : NewDocument} (h : Placing d s s') :
    s'.entryAt d.key = s.entryAt d.key ↔ ∃ e, s.entryAt d.key = some e ∧
      e.row.sequence = d.sequence ∧ e.row.enabled = d.enabled := by
  rw [h.document]
  cases he : s.entryAt d.key with
  | none => simp
  | some e =>
    simp only [NewDocument.placed, Option.elim_some, Option.some.injEq, exists_eq_left']
    constructor
    · intro heq
      rw [← heq]
      exact ⟨rfl, rfl⟩
    · rintro ⟨hsequence, henabled⟩
      unfold NewDocument.onto
      rw [← hsequence, ← henabled]

end Store

namespace Catalog

variable {setting : Setting} {pack : Id} {d : DocumentEntry} {s s' t : Store} {e : CatalogError}

/-! ## One entry -/

/-- An entry of a pack fails, and this is what it leaves. -/
inductive Rejected (setting : Setting) (pack : Id) (d : DocumentEntry) (s : Store) :
    CatalogError → Store → Prop
  | unreadable {e : CatalogError} (template : setting.template d = .error e) :
    Rejected setting pack d s e s
  | offending {named : Option TemplateFile} {offence : HistoryError} {live : Document} {s' : Store}
    (template : setting.template d = .ok named) (rules : checkRules d.rules = .error offence)
    (upsert : upsertDocument (d.wanted pack) s = .ok (live, s')) :
    Rejected setting pack d s (.history offence) s'

/-- Rules that are refused are not those of the document, for these were let in. -/
theorem differs_of_checkRules (hs : s.Recorded) {live : Document} {named : Option TemplateFile}
    {rules : List Rule} {offence : HistoryError} (h : checkRules rules = .error offence) :
    differs s live named rules = true := by
  by_contra hsame
  obtain ⟨-, -, hrules⟩ := differs_eq_false.1 (Bool.not_eq_true _ ▸ hsame)
  have hok : checkRules rules = .ok () := checkRules_of_settled (hrules ▸ hs.rules live.id)
  cases hok.symm.trans h

theorem importDocument_of_rejected (hs : s.Recorded) (h : Rejected setting pack d s e s') :
    importDocument setting pack d s = (.error e, s') := by
  unfold importDocument
  cases h with
  | unreadable template => exact Run.lift_bind_eq_error.2 (Or.inl ⟨template, rfl⟩)
  | offending template rules upsert =>
    have hs' := hs.quiet (quiet_upsertDocument _ _ _ _ upsert)
    refine Run.lift_bind_eq_error.2 (Or.inr ⟨_, template, Run.bind_eq_error.2 (Or.inr
      ⟨_, _, Run.step_eq_ok.2 upsert, ?_⟩)⟩)
    change (ite (differs _ _ _ _ = true) _ _ : Run _) _ = _
    rw [if_pos (differs_of_checkRules hs' rules)]
    exact Run.bind_eq_error.2 (Or.inl (Run.step_eq_error.2
      ⟨_, saveEdit_of_checkEdit rules, rfl, rfl⟩))

/-- An entry whose template is read and whose rules are let in is imported. -/
theorem exists_importDocument (hs : s.Recorded) (hpack : ∃ p ∈ s.packs.rows, p.id = pack)
    {named : Option TemplateFile} (htemplate : setting.template d = .ok named)
    (hrules : checkRules d.rules = .ok ()) :
    ∃ r s', importDocument setting pack d s = (.ok r, s') := by
  obtain ⟨live, s₁, hupsert⟩ := exists_upsertDocument hs.sound (d := d.wanted pack) hpack
  have hs₁ := hs.quiet (quiet_upsertDocument _ _ _ _ hupsert)
  simp only [importDocument_eq_ok]
  cases hdiffers : differs s₁ live named d.rules with
  | true =>
    have hlive : (s₁.document? live.id).isSome := by
      rw [(upsertDocument_ok hupsert).1]
      rfl
    have hchecked : ∀ rules ∈ (⟨named.map some, some d.rules⟩ : Edit).rules,
        checkRules rules = .ok () := by simpa using hrules
    obtain ⟨v, s', hcommit⟩ := commit_exists hlive hchecked setting.signature .save importNote
    refine ⟨_, s', named, live, s₁, htemplate, hupsert, rfl, ?_⟩
    rw [hdiffers]
    exact ⟨v, (saveEdit_eq_ok hs₁.sound).2 hcommit⟩
  | false =>
    refine ⟨_, s₁, named, live, s₁, htemplate, hupsert, rfl, ?_⟩
    rw [hdiffers]
    rfl

/-- **An entry fails exactly if it is rejected**: because of its template, or because of its rules
    once its document was added or changed. -/
theorem importDocument_eq_error (hs : s.Recorded) (hpack : ∃ p ∈ s.packs.rows, p.id = pack) :
    importDocument setting pack d s = (.error e, s') ↔ Rejected setting pack d s e s' := by
  refine ⟨fun h => ?_, importDocument_of_rejected hs⟩
  -- whatever is wrong with the entry gives a rejection, and the import has only one outcome
  have of_rejected {e' s''} (hr : Rejected setting pack d s e' s'') :
      Rejected setting pack d s e s' := by
    cases (importDocument_of_rejected hs hr).symm.trans h
    exact hr
  cases htemplate : setting.template d with
  | error cause => exact of_rejected (.unreadable htemplate)
  | ok named =>
    cases hrules : checkRules d.rules with
    | error offence =>
      obtain ⟨live, s₁, hupsert⟩ := exists_upsertDocument hs.sound (d := d.wanted pack) hpack
      exact of_rejected (.offending htemplate hrules hupsert)
    | ok =>
      obtain ⟨r, s'', hok⟩ := exists_importDocument hs hpack htemplate hrules
      cases hok.symm.trans h

/-! ## Entries that are reached -/

/-- The entries of a pack before this one were imported. -/
inductive ReachedIn (setting : Setting) (pack : Id) (d : DocumentEntry) (t : Store) :
    List DocumentEntry → Store → Prop
  | here {ds : List DocumentEntry} : ReachedIn setting pack d t (d :: ds) t
  | later {d' : DocumentEntry} {ds : List DocumentEntry} {s s₁ : Store} {r : Id × Bool}
    (first : importDocument setting pack d' s = (.ok r, s₁))
    (rest : ReachedIn setting pack d t ds s₁) : ReachedIn setting pack d t (d' :: ds) s

/-- The packs before the one of this entry were imported, its own was added or changed, and so were
    the entries of this pack that stand before it. -/
inductive Reached (setting : Setting) (pack : Id) (d : DocumentEntry) (t : Store) :
    List PackEntry → Store → Prop
  | here {p : PackEntry} {ps : List PackEntry} {s s₁ : Store} {r : Pack}
    (code : (Text.trim p.code).isEmpty = false) (upsert : upsertPack p.wanted s = .ok (r, s₁))
    (number : r.id = pack) (documents : ReachedIn setting pack d t p.documents s₁) :
    Reached setting pack d t (p :: ps) s
  | later {p : PackEntry} {ps : List PackEntry} {s s₁ : Store} {report report' : ImportReport}
    (first : importPack setting p report s = (.ok report', s₁))
    (rest : Reached setting pack d t ps s₁) : Reached setting pack d t (p :: ps) s

theorem importDocument_keeps_packs (hs : s.Recorded) {r : Id × Bool}
    (h : importDocument setting pack d s = (.ok r, s')) : s'.Recorded ∧ s'.packs = s.packs := by
  obtain ⟨named, live, s₁, -, hupsert, -, hafter⟩ := importDocument_eq_ok.1 h
  have hs₁ := hs.quiet (quiet_upsertDocument _ _ _ _ hupsert)
  obtain ⟨hpacks, -⟩ := entryAt_upsertDocument hs.sound hupsert
  split at hafter
  · obtain ⟨v, hedit⟩ := hafter
    have hcommit := (saveEdit_eq_ok hs₁.sound).1 hedit
    exact ⟨hs₁.commit hcommit, hcommit.lookup.1.trans hpacks⟩
  · obtain rfl := hafter
    exact ⟨hs₁, hpacks⟩

theorem ReachedIn.recorded {ds : List DocumentEntry} (h : ReachedIn setting pack d t ds s)
    (hs : s.Recorded) : t.Recorded ∧ t.packs = s.packs := by
  induction h with
  | here => exact ⟨hs, rfl⟩
  | later first _ ih =>
    obtain ⟨hs₁, hpacks₁⟩ := importDocument_keeps_packs hs first
    obtain ⟨ht, hpacks⟩ := ih hs₁
    exact ⟨ht, hpacks.trans hpacks₁⟩

/-- When an entry is reached, the histories are in order and its pack is there. -/
theorem Reached.recorded {ps : List PackEntry} (h : Reached setting pack d t ps s)
    (hs : s.Recorded) : t.Recorded ∧ ∃ p ∈ t.packs.rows, p.id = pack := by
  induction h with
  | here _ upsert number documents =>
    obtain ⟨ht, hpacks⟩ := documents.recorded (hs.quiet (quiet_upsertPack _ _ _ _ upsert))
    obtain ⟨hat, -⟩ := lookup_upsertPack upsert
    exact ⟨ht, _, hpacks ▸ (mem_of_packAt hat).1, number⟩
  | @later p ps s s₁ report report' first _ ih =>
    exact ih ((advances_importPack setting p report).recorded hs first)

/-! ## Imports that fail -/

theorem importDocuments_eq_error {ds : List DocumentEntry} {report : ImportReport}
    (h : importDocuments setting pack ds report s = (.error e, s')) :
    ∃ d t, ReachedIn setting pack d t ds s ∧ importDocument setting pack d t = (.error e, s') := by
  induction ds generalizing s report with
  | nil => cases h
  | cons d ds ih =>
    obtain hd | ⟨r, s₁, hd, h⟩ := Run.bind_eq_error.1 h
    · exact ⟨d, s, .here, hd⟩
    · obtain hds | ⟨_, _, _, h⟩ := Run.bind_eq_error.1 h
      · obtain ⟨d', t, hreached, ht⟩ := ih hds
        exact ⟨d', t, .later hd hreached, ht⟩
      · cases h

/-- A pack fails because it has no code, or because one of its entries does. -/
theorem importPack_eq_error {p : PackEntry} {report : ImportReport}
    (h : importPack setting p report s = (.error e, s')) :
    (e = .emptyPackCode ∧ (Text.trim p.code).isEmpty = true) ∨
      ∃ r s₁ d t, (Text.trim p.code).isEmpty = false ∧ upsertPack p.wanted s = .ok (r, s₁) ∧
        ReachedIn setting r.id d t p.documents s₁ ∧
          importDocument setting r.id d t = (.error e, s') := by
  unfold importPack at h
  dsimp only at h
  split at h
  · next hcode =>
    cases h
    exact Or.inl ⟨rfl, hcode⟩
  · next hcode =>
    obtain hpack | ⟨r, s₁, hpack, h⟩ := Run.bind_eq_error.1 h
    · obtain ⟨_, hpack, -⟩ := Run.step_eq_error.1 hpack
      obtain ⟨r, s₁, hok⟩ := exists_upsertPack p.wanted s
      cases hok.symm.trans hpack
    · obtain hds | ⟨⟨listed, between⟩, s₂, -, h⟩ := Run.bind_eq_error.1 h
      · obtain ⟨d, t, hreached, ht⟩ := importDocuments_eq_error hds
        exact Or.inr ⟨r, s₁, d, t, Bool.eq_false_iff.2 hcode, Run.step_eq_ok.1 hpack, hreached, ht⟩
      · obtain hdisabled | ⟨_, _, -, h⟩ := Run.bind_eq_error.1 h
        · obtain ⟨_, hdisabled, -⟩ := Run.step_eq_error.1 hdisabled
          obtain ⟨n, s₃, hok⟩ := exists_disableUnlisted s₂ r.id listed
          cases hok.symm.trans hdisabled
        · cases h

/-- **An import fails nowhere else**: at a pack without a code, or at an entry that is rejected. -/
theorem exists_rejected (hs : s.Recorded) {ps : List PackEntry} {report : ImportReport}
    (h : importPacks setting ps report s = (.error e, s')) :
    (e = .emptyPackCode ∧ ∃ p ∈ ps, (Text.trim p.code).isEmpty = true) ∨
      ∃ pack d t, Reached setting pack d t ps s ∧ Rejected setting pack d t e s' := by
  induction ps generalizing s report with
  | nil => cases h
  | cons p ps ih =>
    obtain hp | ⟨report', s₁, hp, hps⟩ := Run.bind_eq_error.1 h
    · obtain ⟨he, hcode⟩ | ⟨r, s₁, d, t, hcode, hpack, hreached, ht⟩ := importPack_eq_error hp
      · exact Or.inl ⟨he, p, List.mem_cons_self, hcode⟩
      · have hreached' : Reached setting r.id d t (p :: ps) s := .here hcode hpack rfl hreached
        obtain ⟨hrecorded, hrow⟩ := hreached'.recorded hs
        exact Or.inr ⟨r.id, d, t, hreached', (importDocument_eq_error hrecorded hrow).1 ht⟩
    · have hs₁ := (advances_importPack setting p report).recorded hs hp
      obtain ⟨he, q, hq, hcode⟩ | ⟨pack, d, t, hreached, hrejected⟩ := ih hs₁ hps
      · exact Or.inl ⟨he, q, List.mem_cons_of_mem _ hq, hcode⟩
      · exact Or.inr ⟨pack, d, t, .later hp hreached, hrejected⟩

/-! ## What is left -/

/-- A template that is not read is a file that is not. -/
theorem template_eq_error : setting.template d = .error e ↔ ∃ path detail,
    d.template = some path ∧ setting.read (joined setting.directory path) = .error detail ∧
      e = .unreadable (joined setting.directory path) detail := by
  unfold Setting.template
  cases d.template with
  | none => simp [pure, Except.pure]
  | some path =>
    simp only [Option.mapM_some, readTemplate, Option.some.injEq]
    cases hread : setting.read (joined setting.directory path) with
    | ok bytes => simp [hread]
    | error detail => simp [hread, eq_comm]

/-- **What a rejected entry leaves of its document.**  An import that fails, whatever was done to
    the store before, fails at a pack without a code or at an entry.  If the template of the entry
    is not read, the store is as it was when the entry was reached.  If its rules are refused, the
    document was added or changed before that: it has the sequence and the flag of the entry, and
    its template, its rules and its versions are as they were.  So it is as it was exactly if it was
    there with this sequence and this flag. -/
theorem rejection_leaves (ops : List Operation) (setting : Setting) (catalog : Catalog)
    {e : CatalogError} {s' : Store}
    (himport : importCatalog setting catalog (Generation.World.start.runAll ops).store =
      (.error e, s')) :
    (e = .emptyPackCode ∧ ∃ p ∈ catalog.packs, (Text.trim p.code).isEmpty = true) ∨
      ∃ pack d t,
        Reached setting pack d t catalog.packs (Generation.World.start.runAll ops).store ∧
        ((∃ path detail, d.template = some path ∧
            setting.read (joined setting.directory path) = .error detail ∧
            e = .unreadable (joined setting.directory path) detail ∧ s' = t) ∨
          ∃ named offence, setting.template d = .ok named ∧ FirstOffence d.rules offence ∧
            e = .history offence ∧ Placing (d.wanted pack) t s' ∧
            (s'.entryAt (d.wanted pack).key = t.entryAt (d.wanted pack).key ↔
              ∃ old, t.entryAt (d.wanted pack).key = some old ∧
                old.row.sequence = d.sequence ∧ old.row.enabled = d.enabled)) := by
  have hs := recorded_runAll ops
  refine (exists_rejected hs himport).imp_right ?_
  rintro ⟨pack, d, t, hreached, hrejected⟩
  refine ⟨pack, d, t, hreached, ?_⟩
  cases hrejected with
  | unreadable template =>
    obtain ⟨path, detail, hpath, hread, he⟩ := template_eq_error.1 template
    exact Or.inl ⟨path, detail, hpath, hread, he, rfl⟩
  | offending template rules upsert =>
    have hplacing := placing_of_upsertDocument (hreached.recorded hs).1.sound upsert
    exact Or.inr ⟨_, _, template, firstOffence_of_checkRules rules, rfl, hplacing,
      hplacing.entryAt_eq_iff⟩

/-- A catalog whose only entry is for a document that is not there, with two rules for one cell. -/
def sampleClashing : Catalog :=
  ⟨[⟨"A", "", true, .a4, none, [⟨"label", "", 2, true, none,
    [⟨"Sheet1", "B2", "carton.code", "", true, 1⟩,
      ⟨"Sheet1", "$b$2", "shipment.date", "", true, 2⟩]⟩]⟩]⟩

/-- The document of the entry was added. -/
theorem sample_rejection_leaves : ∃ s',
    importCatalog sampleSetting sampleClashing
      (Generation.World.start.runAll [sampleImport]).store =
        (.error (.history (.duplicateRule "Sheet1" "B2")), s') ∧
    ∃ pack d t, Reached sampleSetting pack d t sampleClashing.packs
        (Generation.World.start.runAll [sampleImport]).store ∧
      Placing (d.wanted pack) t s' := by
  have hresult : (importCatalog sampleSetting sampleClashing
      (Generation.World.start.runAll [sampleImport]).store).1 =
        .error (.history (.duplicateRule "Sheet1" "B2")) := by
    decide +kernel
  cases himport : importCatalog sampleSetting sampleClashing
    (Generation.World.start.runAll [sampleImport]).store with
  | mk result s' =>
    rw [himport] at hresult
    obtain rfl : result = .error (.history (.duplicateRule "Sheet1" "B2")) := hresult
    refine ⟨s', rfl, ?_⟩
    obtain ⟨he, -⟩ | ⟨pack, d, t, hreached, ⟨_, _, -, -, he, -⟩ | ⟨_, _, -, -, -, hplacing, -⟩⟩ :=
      rejection_leaves [sampleImport] sampleSetting sampleClashing himport
    · cases he
    · cases he
    · exact ⟨pack, d, t, hreached, hplacing⟩

/-- A catalog that moves the sample document, disables it, and gives it a rule without a cell. -/
def sampleMistaken : Catalog :=
  ⟨[⟨"A", "", true, .a4, none, [⟨"note", "", 9, false, none,
    [⟨"Sheet1", "B", "shipment.reference", "", true, 1⟩]⟩]⟩]⟩

/-- The document of an entry that is rejected is moved and disabled all the same. -/
theorem rejected_document_is_changed :
    let s := (Generation.World.start.runAll [sampleImport]).store
    let result := importCatalog sampleSetting sampleMistaken s
    result.1 = .error (.history (.invalidCell "Sheet1" "B")) ∧
      s.document? 1 = some sampleDocument ∧
      result.2.document? 1 = some { sampleDocument with sequence := 9, enabled := false } := by
  decide +kernel

end Catalog

end Waybill
