/-
  The parts of the actions on a document, and the store after them.

  * `Store.withTemplate`, `Store.withRules` and `Store.edited` are the store after an edit, which
    leaves the other documents alone;
  * `Store.versionRows` are the versions of a document as they are kept;
  * `Store.snapshot` is the version that records a document as it is.

  Statements: `applyEdit_eq_ok` and `saveSnapshot_eq_ok` (when a part succeeds and what the store is
  after it), `sound_edited` (an edit that goes through keeps the store sound).
-/
import Waybill.Proofs.History.Rules
import Waybill.Proofs.Store.Schema

namespace Waybill

open Waybill.Mapping Waybill.History Waybill.Table

/-! ## Templates that count -/

@[simp] theorem TemplateFile.present?_present? (t : Option TemplateFile) :
    present? (present? t) = present? t := by
  rcases t with - | t
  · rfl
  · by_cases h : t.bytes.isEmpty <;> simp [present?, h]

theorem TemplateFile.present?_map_name {t : Option TemplateFile} (name : String) :
    present? (t.map fun t => { t with name }) =
      (present? t).map fun t => { t with name } := by
  rcases t with - | t
  · rfl
  · by_cases h : t.bytes.isEmpty <;> simp [present?, h]

namespace Store

variable {s s' : Store} {d e : Id}

/-! ## The store after an edit -/

/-- Rules added to a document in order. -/
def putRules (d : Id) (rs : List Rule) (t : Table RuleRow) : Table RuleRow :=
  rs.foldl (fun t r => t.push fun id => ⟨id, d, r⟩) t

/-- The store with other live rules of a document. -/
def withRules (s : Store) (d : Id) (rs : List Rule) : Store :=
  { s with rules := putRules d rs (s.rules.erase fun row => row.document == d) }

/-- The store with another template of a document. -/
def withTemplate (s : Store) (d : Id) (t : Option TemplateFile) : Store :=
  { s with documents :=
      s.documents.change (fun row => row.id == d) fun row => { row with template := t } }

/-- The store after an edit; what the edit leaves out stays. -/
def edited (s : Store) (d : Id) (edit : Edit) : Store :=
  let s := match edit.template with
    | some t => s.withTemplate d t
    | none => s
  match edit.rules with
  | some rules => s.withRules d (Rule.normalizedAll rules)
  | none => s

/-- The version that records a document as it is. -/
def snapshot (s : Store) (d : Document) (signature : Signature) (change : ChangeType)
    (note : String) : Version where
  id := s.versions.next
  document := d.id
  number := s.nextNumber d.id
  template := d.template.map fun t => { t with name := d.snapshotName (s.nextNumber d.id) }
  rules := s.rulesOf d.id
  change := change
  note := Text.trim note
  createdBy := signature.user
  createdAt := signature.time

/-! ## Views of an edited store -/

theorem filter_putRules_of_ne (h : e ≠ d) (rs : List Rule) (t : Table RuleRow) :
    ((putRules d rs t).rows.filter fun row => row.document == e) =
      t.rows.filter fun row => row.document == e := by
  induction rs generalizing t with
  | nil => rfl
  | cons r rs ih =>
    rw [putRules, List.foldl_cons]
    refine (ih _).trans ?_
    rw [rows_push, List.filter_append]
    simp [Ne.symm h]

theorem map_filter_putRules (rs : List Rule) (t : Table RuleRow) :
    ((putRules d rs t).rows.filter fun row => row.document == d).map RuleRow.rule =
      (t.rows.filter fun row => row.document == d).map RuleRow.rule ++ rs := by
  induction rs generalizing t with
  | nil => simp [putRules]
  | cons r rs ih =>
    rw [putRules, List.foldl_cons]
    refine (ih _).trans ?_
    rw [rows_push, List.filter_append, List.map_append]
    simp

theorem ruleRows_withRules_of_ne (h : e ≠ d) (s : Store) (rs : List Rule) :
    (s.withRules d rs).ruleRows e = s.ruleRows e := by
  unfold ruleRows withRules
  rw [filter_putRules_of_ne h, Table.erase, List.filter_filter]
  congr 2
  funext row
  by_cases he : row.document = e <;> simp [he, h]

@[simp] theorem rulesOf_withRules (s : Store) (d : Id) (rs : List Rule) :
    (s.withRules d rs).rulesOf d = inSequence (fun r => r.sequence) rs := by
  unfold rulesOf ruleRows withRules
  rw [map_inSequence, map_filter_putRules, Table.erase, List.filter_filter]
  simp

theorem find?_withTemplate (s : Store) (d e : Id) (t : Option TemplateFile) :
    ((s.withTemplate d t).documents.rows.find? fun row => row.id == e) =
      (s.documents.rows.find? fun row => row.id == e).map fun row =>
        if row.id == d then { row with template := t } else row :=
  find?_change (p := fun row : DocumentRow => row.id == e) fun _ _ => rfl

theorem document?_withTemplate (s : Store) (d : Id) (t : Option TemplateFile) :
    (s.withTemplate d t).document? d =
      (s.document? d).map fun doc => { doc with template := TemplateFile.present? t } := by
  rw [document?, find?_withTemplate, document?]
  cases h : s.documents.rows.find? fun row => row.id == d with
  | none => rfl
  | some row =>
    have hid : row.id = d := by simpa using List.find?_some h
    simp [hid, readDocument?, withTemplate, Function.comp_def]

theorem document?_withTemplate_of_ne (h : e ≠ d) (s : Store) (t : Option TemplateFile) :
    (s.withTemplate d t).document? e = s.document? e := by
  rw [document?, find?_withTemplate, document?]
  cases hf : s.documents.rows.find? fun row => row.id == e with
  | none => rfl
  | some row =>
    have hid : row.id = e := by simpa using List.find?_some hf
    simp only [Option.map_some, Option.bind_some, hid, beq_iff_eq, h, ↓reduceIte]
    rfl

theorem document?_edited_of_ne (h : e ≠ d) (s : Store) (edit : Edit) :
    (s.edited d edit).document? e = s.document? e := by
  obtain ⟨_ | t, _ | rules⟩ := edit
  · rfl
  · rfl
  · exact document?_withTemplate_of_ne h s t
  · exact document?_withTemplate_of_ne h s t

theorem ruleRows_edited_of_ne (h : e ≠ d) (s : Store) (edit : Edit) :
    (s.edited d edit).ruleRows e = s.ruleRows e := by
  obtain ⟨_ | t, _ | rules⟩ := edit
  · rfl
  · exact ruleRows_withRules_of_ne h s _
  · rfl
  · exact ruleRows_withRules_of_ne h (s.withTemplate d t) _

theorem document?_edited (s : Store) (d : Id) (edit : Edit) :
    (s.edited d edit).document? d = (s.document? d).map fun doc =>
      { doc with template := (edit.template.map TemplateFile.present?).getD doc.template } := by
  obtain ⟨_ | t, _ | rules⟩ := edit
  · simp [edited]
  · change s.document? d = _
    simp
  · exact document?_withTemplate s d t
  · exact document?_withTemplate s d t

theorem rulesOf_edited (s : Store) (d : Id) (edit : Edit) :
    (s.edited d edit).rulesOf d = (edit.rules.map fun rules =>
      inSequence (fun r => r.sequence) (Rule.normalizedAll rules)).getD (s.rulesOf d) := by
  obtain ⟨_ | t, _ | rules⟩ := edit
  · rfl
  · exact rulesOf_withRules s d _
  · rfl
  · exact rulesOf_withRules (s.withTemplate d t) d _

theorem versions_edited (s : Store) (d : Id) (edit : Edit) :
    (s.edited d edit).versions = s.versions := by
  obtain ⟨_ | t, _ | rules⟩ := edit <;> rfl

/-! ## Numbers of versions -/

/-- The versions of a document as they are kept, oldest first. -/
def versionRows (s : Store) (d : Id) : List VersionRow :=
  s.versions.rows.filter fun row => row.document == d

theorem nextNumber_eq_iff {n : Nat} :
    s.nextNumber d = n + 1 ↔ n ∈ 0 :: (s.versionRows d).map (·.number) ∧
      ∀ m ∈ 0 :: (s.versionRows d).map (·.number), m ≤ n := by
  rw [← List.max?_eq_some_iff, List.max?_cons', Option.some_inj, nextNumber,
    Nat.add_right_cancel_iff]
  rfl

theorem number_lt_nextNumber {row : VersionRow} (hrow : row ∈ s.versionRows d) :
    row.number < s.nextNumber d := by
  obtain ⟨-, hmax⟩ := nextNumber_eq_iff.1 (rfl : s.nextNumber d = _ + 1)
  exact Nat.lt_succ_of_le (hmax _ (List.mem_cons_of_mem _ (List.mem_map_of_mem hrow)))

theorem nextNumber_of_numbers {n : Nat}
    (h : (s.versionRows d).map (·.number) = List.range' 1 n) : s.nextNumber d = n + 1 := by
  rw [nextNumber_eq_iff, h]
  refine ⟨?_, fun m hm => ?_⟩
  · rcases n with - | n
    · exact List.mem_cons_self
    · exact List.mem_cons_of_mem _ (List.mem_range'_1.2 (by omega))
  · rcases List.mem_cons.1 hm with rfl | hm
    · exact Nat.zero_le n
    · have := (List.mem_range'_1.1 hm).2
      omega

/-! ## Documents that are there -/

/-- A row of a sound store is a document. -/
theorem Sound.document?_isSome (hs : s.Sound) :
    (s.document? d).isSome ↔ ∃ row ∈ s.documents.rows, row.id = d := by
  constructor
  · intro h
    obtain ⟨doc, h⟩ := Option.isSome_iff_exists.1 h
    obtain ⟨row, hrow, -⟩ := Option.bind_eq_some_iff.1 h
    exact ⟨row, List.mem_of_find?_eq_some hrow, by simpa using List.find?_some hrow⟩
  · rintro ⟨row, hrow, rfl⟩
    obtain ⟨p, hp, hid⟩ := hs.documentPacks row hrow
    have : (s.packs.rows.find? fun q => q.id == row.pack) = some p := by
      rw [← hid]; exact hs.packs.find?_eq hp
    simp [document?, hs.documents.find?_eq hrow, readDocument?, this]

theorem document?_template {doc : Document} (h : s.document? d = some doc) :
    TemplateFile.present? doc.template = doc.template := by
  obtain ⟨row, -, h⟩ := Option.bind_eq_some_iff.1 h
  obtain ⟨p, -, rfl⟩ := Option.map_eq_some_iff.1 h
  exact TemplateFile.present?_present? _

/-! ## The parts of an action -/

theorem setTemplate_eq_ok {t : Option TemplateFile} {u : Unit} :
    setTemplate d t s = .ok (u, s') ↔ (∃ row ∈ s.documents.rows, row.id = d) ∧
      s' = s.withTemplate d t := changeDocument_eq_ok

theorem Sound.withTemplate (hs : s.Sound) (d : Id) (t : Option TemplateFile) :
    (s.withTemplate d t).Sound :=
  have hid : ∀ row : DocumentRow, row.id == d → ({ row with template := t }).id = row.id :=
    fun _ _ => rfl
  { hs with
    documents := hs.documents.change hid
    documentKeys := hs.documentKeys.change fun _ _ => rfl
    documentPacks := hs.documentPacks.change fun _ _ => rfl
    ruleDocuments := hs.ruleDocuments.change_right hid
    versionDocuments := hs.versionDocuments.change_right hid }

end Store

namespace History

open Waybill.Store

variable {s s' : Store} {d : Id}

theorem insertRules_eq_ok (hd : ∃ row ∈ s.documents.rows, row.id = d) {rs : List Rule} {u : Unit} :
    insertRules d rs s = .ok (u, s') ↔
      (∀ r ∈ rs, ∀ row ∈ s.rules.rows, row.key ≠ (d, r.worksheet, r.cell)) ∧
        rs.Pairwise (fun a b => a.spelling ≠ b.spelling) ∧
          s' = { s with rules := putRules d rs s.rules } := by
  induction rs generalizing s with
  | nil => simp [insertRules, putRules]
  | cons r rs ih =>
    simp only [insertRules, Action.bind_eq_ok, insertRule_eq_ok]
    constructor
    · rintro ⟨_, _, ⟨hnew, -, -, rfl⟩, h⟩
      obtain ⟨hrest, hp, rfl⟩ := (ih (by exact hd)).1 h
      refine ⟨List.forall_mem_cons.2 ⟨hnew, fun q hq row hrow => ?_⟩,
        List.pairwise_cons.2 ⟨fun q hq e => ?_, hp⟩, rfl⟩
      · exact hrest q hq row (mem_push.2 (Or.inl hrow))
      · obtain ⟨hw, hc⟩ := Prod.mk.injEq .. ▸ e
        exact hrest q hq _ (mem_push.2 (Or.inr rfl)) (by simp [RuleRow.key, hw, hc])
    · rintro ⟨hall, hp, rfl⟩
      obtain ⟨hnew, hrest⟩ := List.forall_mem_cons.1 hall
      obtain ⟨hfirst, hp⟩ := List.pairwise_cons.1 hp
      refine ⟨_, _, ⟨hnew, hd, rfl, rfl⟩, (ih (by exact hd)).2 ⟨fun q hq row hrow => ?_, hp, rfl⟩⟩
      rcases mem_push.1 hrow with hrow | rfl
      · exact hrest q hq row hrow
      · intro e
        simp only [RuleRow.key, Prod.mk.injEq, true_and] at e
        exact hfirst q hq (Prod.ext e.1 e.2)

theorem replaceRules_eq_ok (hd : ∃ row ∈ s.documents.rows, row.id = d) {rules : List Rule}
    {u : Unit} : replaceRules d rules s = .ok (u, s') ↔
      (Rule.normalizedAll rules).Pairwise (fun a b => a.spelling ≠ b.spelling) ∧
        s' = s.withRules d (Rule.normalizedAll rules) := by
  simp only [replaceRules, Action.bind_eq_ok, deleteRules_eq_ok]
  constructor
  · rintro ⟨_, _, ⟨-, rfl⟩, h⟩
    obtain ⟨-, hp, rfl⟩ := (insertRules_eq_ok (by exact hd)).1 h
    exact ⟨hp, rfl⟩
  · rintro ⟨hp, rfl⟩
    refine ⟨_, _, ⟨rfl, rfl⟩,
      (insertRules_eq_ok (by exact hd)).2 ⟨fun r _ row hrow e => ?_, hp, rfl⟩⟩
    -- the rules of the document are gone
    have hne : row.document ≠ d := by
      have := (List.mem_filter.1 hrow).2
      simpa using this
    exact hne (congrArg Prod.fst e)

theorem sound_insertRules (hs : s.Sound) {rs : List Rule} {u : Unit}
    (h : insertRules d rs s = .ok (u, s')) : s'.Sound := by
  induction rs generalizing s with
  | nil =>
    obtain ⟨-, rfl⟩ := Action.pure_eq_ok.1 h
    exact hs
  | cons r rs ih =>
    obtain ⟨_, _, h₁, h⟩ := Action.bind_eq_ok.1 h
    exact ih (hs.insertRule h₁) h

theorem document_eq_ok {r : Document} :
    document d s = .ok (r, s') ↔ s.document? d = some r ∧ s' = s := by
  unfold document
  rw [Action.get_bind_eq_ok]
  cases s.document? d with
  | none => simp
  | some doc =>
    rw [Action.pure_eq_ok, Option.some.injEq]
    exact and_congr_left' eq_comm

/-- The steps of an edit between the check and the record. -/
def applyEdit (d : Id) (edit : Edit) : Action HistoryError Unit := do
  match edit.template with
  | some template => lifted (setTemplate d template)
  | none => pure ()
  match edit.rules with
  | some rules => lifted (replaceRules d rules)
  | none => pure ()

theorem exists_row_withTemplate (hd : ∃ row ∈ s.documents.rows, row.id = d)
    (t : Option TemplateFile) : ∃ row ∈ (s.withTemplate d t).documents.rows, row.id = d := by
  obtain ⟨row, hrow, rfl⟩ := hd
  exact ⟨_, mem_change.2 ⟨row, hrow, rfl⟩, by simp⟩

theorem applyEdit_eq_ok (hd : ∃ row ∈ s.documents.rows, row.id = d) {edit : Edit} {u : Unit} :
    applyEdit d edit s = .ok (u, s') ↔
      (∀ rules ∈ edit.rules,
        (Rule.normalizedAll rules).Pairwise fun a b => a.spelling ≠ b.spelling) ∧
          s' = s.edited d edit := by
  obtain ⟨_ | t, _ | rules⟩ := edit
  · simp [applyEdit, edited]
  · simp [applyEdit, edited, replaceRules_eq_ok hd]
  · simp [applyEdit, edited, setTemplate_eq_ok, hd]
  · simp [applyEdit, edited, setTemplate_eq_ok, hd,
      replaceRules_eq_ok (exists_row_withTemplate hd t)]

theorem sound_withRules (hs : s.Sound) (hd : ∃ row ∈ s.documents.rows, row.id = d)
    {rules : List Rule}
    (hp : (Rule.normalizedAll rules).Pairwise fun a b => a.spelling ≠ b.spelling) :
    (s.withRules d (Rule.normalizedAll rules)).Sound := by
  have h : replaceRules d rules s = .ok ((), s.withRules d (Rule.normalizedAll rules)) :=
    (replaceRules_eq_ok hd).2 ⟨hp, rfl⟩
  obtain ⟨_, s₁, hdel, hins⟩ := Action.bind_eq_ok.1 h
  exact sound_insertRules (hs.deleteRules hdel) hins

theorem sound_edited (hs : s.Sound) (hd : ∃ row ∈ s.documents.rows, row.id = d) {edit : Edit}
    (hc : ∀ rules ∈ edit.rules,
      (Rule.normalizedAll rules).Pairwise fun a b => a.spelling ≠ b.spelling) :
    (s.edited d edit).Sound := by
  obtain ⟨_ | t, _ | rules⟩ := edit
  · exact hs
  · exact sound_withRules hs hd (hc rules rfl)
  · exact hs.withTemplate d t
  · exact sound_withRules (hs.withTemplate d t) (exists_row_withTemplate hd t) (hc rules rfl)

theorem saveSnapshot_eq_ok (hs : s.Sound) {signature : Signature} {change : ChangeType}
    {note : String} {r : Version} :
    saveSnapshot d signature change note s = .ok (r, s') ↔
      ∃ doc, s.document? d = some doc ∧ r = s.snapshot doc signature change note ∧
        s' = s.recorded r := by
  have hread : ∀ doc, s.document? d = some doc → ∀ number,
      TemplateFile.present? (doc.template.map fun t =>
        { t with name := doc.snapshotName number }) =
        doc.template.map fun t => { t with name := doc.snapshotName number } := by
    intro doc hdoc number
    rw [TemplateFile.present?_map_name, document?_template hdoc]
  unfold saveSnapshot
  constructor
  · intro h
    obtain ⟨doc, s₁, hdoc, hins⟩ := Action.bind_eq_ok.1 h
    obtain ⟨hdoc, rfl⟩ := document_eq_ok.1 hdoc
    rw [Action.get_bind_eq_ok, Action.lifted_eq_ok, insertVersion_eq_ok hs.versions] at hins
    obtain ⟨-, rfl, rfl⟩ := hins
    simp only [hread doc hdoc]
    exact ⟨doc, hdoc, by rw [snapshot, document?_id hdoc], rfl⟩
  · rintro ⟨doc, hdoc, rfl, rfl⟩
    refine Action.bind_eq_ok.2 ⟨doc, s, document_eq_ok.2 ⟨hdoc, rfl⟩, ?_⟩
    rw [Action.get_bind_eq_ok, Action.lifted_eq_ok, insertVersion_eq_ok hs.versions]
    simp only [hread doc hdoc]
    refine ⟨hs.document?_isSome.1 (by simp [hdoc]), by rw [snapshot, document?_id hdoc], ?_⟩
    rw [recorded, recorded, snapshot, document?_id hdoc]

end History

end Waybill
