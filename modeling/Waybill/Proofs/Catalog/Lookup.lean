/-
  Packs and documents, looked up by what tells them apart.

  * `Store.packAt` is the row of a pack by its code;
  * `Entry` is a document as it is kept, with its live rules and its versions; `Store.entryAt` is
    the entry by pack, type and variant.

  Statements: `Sound.entryAt_eq` (a sound store has one entry for each row), and one lemma for each
  action of an import, which says what it does to packs and entries: `lookup_upsertPack`,
  `entryAt_upsertDocument`, `lookup_disableUnlisted` and `Commit.lookup`.
-/
import Waybill.Proofs.Catalog.Import

namespace Waybill

open Waybill.Mapping Waybill.History Waybill.Store Waybill.Table

/-! ## Entries -/

/-- A document as it is kept, with its live rules and its versions. -/
structure Entry where
  row : DocumentRow
  rules : List RuleRow
  versions : List VersionRow

/-- The template that counts. -/
def Entry.template (e : Entry) : Option TemplateFile :=
  TemplateFile.present? e.row.template

/-- The entry with its document disabled. -/
def Entry.disabled (e : Entry) : Entry :=
  { e with row := { e.row with enabled := false } }

theorem Entry.disabled_eq {e : Entry} (h : e.row.enabled = false) : e.disabled = e := by
  unfold disabled
  rw [← h]

/-- What tells the document apart. -/
def Store.NewDocument.key (d : NewDocument) : Id × String × String :=
  (d.pack, d.type, d.variant)

namespace Store

/-- The pack of a code, as it is kept. -/
def packAt (s : Store) (code : String) : Option PackRow :=
  s.packs.rows.find? fun row => row.code == code

/-- The document of a pack, type and variant, as it is kept. -/
def row? (s : Store) (k : Id × String × String) : Option DocumentRow :=
  s.documents.rows.find? fun row => row.key = k

/-- The entry of a document. -/
def entryOf (s : Store) (row : DocumentRow) : Entry :=
  ⟨row, s.ruleRows row.id, s.versionRows row.id⟩

/-- The entry of a pack, type and variant. -/
def entryAt (s : Store) (k : Id × String × String) : Option Entry :=
  (s.row? k).map s.entryOf

variable {s s' : Store} {k : Id × String × String} {e : Entry}

theorem row_of_entryAt (h : s.entryAt k = some e) :
    e.row ∈ s.documents.rows ∧ e.row.key = k ∧ e = s.entryOf e.row := by
  obtain ⟨row, hrow, rfl⟩ := Option.map_eq_some_iff.1 h
  have hkey : row.key = k := by simpa using List.find?_some hrow
  exact ⟨List.mem_of_find?_eq_some hrow, hkey, rfl⟩

theorem entryAt_eq_none (h : ∀ row ∈ s.documents.rows, row.key ≠ k) : s.entryAt k = none := by
  unfold entryAt row?
  rw [List.find?_eq_none.2 (by simpa using h), Option.map_none]

/-- Every document of a sound store is found. -/
theorem Sound.entryAt_eq (hs : s.Sound) {row : DocumentRow} (hrow : row ∈ s.documents.rows) :
    s.entryAt row.key = some (s.entryOf row) := by
  unfold entryAt row?
  rw [hs.documentKeys.find?_eq hrow, Option.map_some]

/-- Entries of one number are found at one place. -/
theorem Sound.key_eq_of_id_eq (hs : s.Sound) {k' : Id × String × String} {e' : Entry}
    (h : s.entryAt k = some e) (h' : s.entryAt k' = some e') (hid : e.row.id = e'.row.id) :
    k = k' := by
  obtain ⟨hrow, rfl, -⟩ := row_of_entryAt h
  obtain ⟨hrow', rfl, -⟩ := row_of_entryAt h'
  rw [hs.documents.eq_of_id_eq hrow hrow' hid]

theorem mem_of_packAt {code : String} {row : PackRow} (h : s.packAt code = some row) :
    row ∈ s.packs.rows ∧ row.code = code :=
  ⟨List.mem_of_find?_eq_some h, by simpa using List.find?_some h⟩

theorem Sound.packAt_eq (hs : s.Sound) {row : PackRow} (hrow : row ∈ s.packs.rows) :
    s.packAt row.code = some row := by
  unfold packAt
  simp only [beq_eq_decide]
  exact hs.packCodes.find?_eq hrow

/-- Packs of different codes have different numbers. -/
theorem Sound.id_ne_of_code_ne (hs : s.Sound) {code code' : String} {row row' : PackRow}
    (h : s.packAt code = some row) (h' : s.packAt code' = some row') (hne : code ≠ code') :
    row.id ≠ row'.id := by
  obtain ⟨hrow, rfl⟩ := mem_of_packAt h
  obtain ⟨hrow', rfl⟩ := mem_of_packAt h'
  exact fun hid => hne (by rw [hs.packs.eq_of_id_eq hrow hrow' hid])

/-! ## Changes of documents -/

/-- Every entry after a change of documents that leaves their numbers and keys alone. -/
theorem entryAt_change (s : Store) (which : DocumentRow → Bool) {f : DocumentRow → DocumentRow}
    (hid : ∀ row, (f row).id = row.id) (hkey : ∀ row, (f row).key = row.key)
    (k : Id × String × String) :
    { s with documents := s.documents.change which f }.entryAt k =
      (s.entryAt k).map fun e => { e with row := if which e.row then f e.row else e.row } := by
  unfold entryAt row?
  rw [find?_change fun row _ => by rw [hkey], Option.map_map, Option.map_map]
  congr 1
  funext row
  change Entry.mk _ _ _ = Entry.mk _ _ _
  rw [view_change fun row _ => hid row]
  rfl

theorem entryAt_upsertDocument (hs : s.Sound) {d : NewDocument} {r : Document}
    (h : upsertDocument d s = .ok (r, s')) :
    s'.packs = s.packs ∧ (∀ k ≠ d.key, s'.entryAt k = s.entryAt k) ∧
      ((∃ e, s.entryAt d.key = some e ∧ r.id = e.row.id ∧
          s'.entryAt d.key = some { e with row := d.onto e.row }) ∨
        s.entryAt d.key = none ∧ r.id = s.documents.next ∧
          s'.entryAt d.key = some (s'.entryOf (d.row s.documents.next))) := by
  obtain ⟨-, ⟨row, hrow, hkey, hid, rfl⟩ | ⟨hnew, -, hid, rfl⟩⟩ := upsertDocument_ok h
  · have hentry := entryAt_change s d.matches (f := d.onto) (fun _ => rfl) fun _ => rfl
    have hrow : s.entryAt d.key = some (s.entryOf row) := by
      rw [← hs.entryAt_eq hrow, hkey]
      rfl
    refine ⟨rfl, fun k hk => (hentry k).trans ?_, Or.inl ⟨s.entryOf row, hrow, hid, ?_⟩⟩
    · cases he : s.entryAt k with
      | none => rfl
      | some e =>
        have hne : ¬ d.matches e.row = true := fun hm =>
          hk ((row_of_entryAt he).2.1.symm.trans (NewDocument.matches_iff.1 hm))
        rw [Option.map_some, if_neg hne]
    · have hm : d.matches (s.entryOf row).row = true := NewDocument.matches_iff.2 hkey
      refine (hentry d.key).trans ?_
      rw [hrow, Option.map_some, if_pos hm]
  · have hrow : ∀ k, row? { s with documents := s.documents.push d.row } k =
        (s.row? k).or (if (d.row s.documents.next).key = k then some (d.row s.documents.next)
          else none) := by
      intro k
      unfold row?
      rw [rows_push, List.find?_append]
      by_cases hk : (d.row s.documents.next).key = k <;> simp [hk]
    have hnone : s.entryAt d.key = none := entryAt_eq_none hnew
    refine ⟨rfl, fun k hk => ?_, Or.inr ⟨hnone, hid, ?_⟩⟩
    · unfold entryAt
      rw [hrow, if_neg fun h => hk h.symm, Option.or_none]
      rfl
    · have hkey : (d.row s.documents.next).key = d.key := rfl
      unfold entryAt
      rw [hrow, Option.map_eq_none_iff.1 hnone, Option.none_or, if_pos hkey, Option.map_some]

/-- What disabling documents does to packs and entries. -/
theorem lookup_disableAll {ids : List Id} {u : Unit}
    (h : Catalog.disableAll ids s = .ok (u, s')) :
    s'.packs = s.packs ∧ ∀ k,
      s'.entryAt k = (s.entryAt k).map fun e => if e.row.id ∈ ids then e.disabled else e := by
  induction ids generalizing s with
  | nil =>
    obtain ⟨-, rfl⟩ := Action.pure_eq_ok.1 h
    simp
  | cons id ids ih =>
    obtain ⟨_, s₁, hset, hrest⟩ := Action.bind_eq_ok.1 h
    obtain ⟨-, rfl⟩ := changeDocument_eq_ok.1 hset
    obtain ⟨hpacks, hentries⟩ := ih hrest
    refine ⟨hpacks, fun k => ?_⟩
    have hentry := entryAt_change s (fun row => row.id == id)
      (f := fun row => { row with enabled := false }) (fun _ => rfl) (fun _ => rfl) k
    rw [hentries, hentry, Option.map_map]
    congr 1
    funext e
    by_cases hid : e.row.id = id <;> by_cases hids : e.row.id ∈ ids <;>
      simp [hid, hids, Entry.disabled]

/-- The documents of a pack are those whose rows name it. -/
theorem mem_packDocuments {pack : Id} {doc : Document} :
    doc ∈ s.packDocuments pack ↔
      ∃ row ∈ s.documents.rows, row.pack = pack ∧ s.readDocument? row = some doc := by
  unfold packDocuments
  simp only [List.mem_filterMap, (inSequence_perm _).mem_iff, List.mem_filter, beq_iff_eq,
    and_assoc]

theorem readDocument?_eq (hs : s.Sound) {row : DocumentRow} (hrow : row ∈ s.documents.rows) :
    ∃ doc, s.readDocument? row = some doc := by
  obtain ⟨p, hp, hid⟩ := hs.documentPacks row hrow
  unfold readDocument?
  rw [← hid, hs.packs.find?_eq hp, Option.map_some]
  exact ⟨_, rfl⟩

theorem of_readDocument? {row : DocumentRow} {doc : Document}
    (h : s.readDocument? row = some doc) : doc.id = row.id ∧ doc.enabled = row.enabled ∧
      doc.template = TemplateFile.present? row.template := by
  obtain ⟨p, -, rfl⟩ := Option.map_eq_some_iff.1 h
  exact ⟨rfl, rfl, rfl⟩

/-- The documents that are dropped: the enabled ones of the pack that are not listed. -/
theorem mem_dropped (hs : s.Sound) (pack : Id) (listed : List Id) {row : DocumentRow}
    (hrow : row ∈ s.documents.rows) :
    row.id ∈ ((s.packDocuments pack).filter fun d =>
        d.enabled && !listed.contains d.id).map (·.id) ↔
      row.pack = pack ∧ row.enabled = true ∧ row.id ∉ listed := by
  simp only [List.mem_map, List.mem_filter, mem_packDocuments, Bool.and_eq_true,
    Bool.not_eq_true', List.contains_eq_mem, decide_eq_false_iff_not]
  constructor
  · rintro ⟨doc, ⟨⟨row', hrow', hpack, hdoc⟩, henabled, hlisted⟩, hid⟩
    obtain ⟨hid', henabled', -⟩ := of_readDocument? hdoc
    obtain rfl := hs.documents.eq_of_id_eq hrow' hrow (hid'.symm.trans hid)
    exact ⟨hpack, henabled' ▸ henabled, hid' ▸ hlisted⟩
  · rintro ⟨hpack, henabled, hlisted⟩
    obtain ⟨doc, hdoc⟩ := readDocument?_eq hs hrow
    obtain ⟨hid, henabled', -⟩ := of_readDocument? hdoc
    exact ⟨doc, ⟨⟨row, hrow, hpack, hdoc⟩, henabled'.trans henabled, hid ▸ hlisted⟩, hid⟩

/-- What disabling the documents of a pack that are not listed does to packs and entries. -/
theorem lookup_disableUnlisted (hs : s.Sound) {pack : Id} {listed : List Id} {n : Nat}
    (h : Catalog.disableUnlisted pack listed s = .ok (n, s')) :
    s'.packs = s.packs ∧ ∀ k, s'.entryAt k = (s.entryAt k).map fun e =>
      if e.row.pack = pack ∧ e.row.id ∉ listed then e.disabled else e := by
  rw [Catalog.disableUnlisted, Action.get_bind_eq_ok] at h
  obtain ⟨_, s₁, hall, hpure⟩ := Action.bind_eq_ok.1 h
  obtain ⟨-, rfl⟩ := Action.pure_eq_ok.1 hpure
  obtain ⟨hpacks, hentries⟩ := lookup_disableAll hall
  refine ⟨hpacks, fun k => ?_⟩
  rw [hentries]
  cases he : s.entryAt k with
  | none => rfl
  | some e =>
    have hdropped := mem_dropped hs pack listed (row_of_entryAt he).1
    rw [Option.map_some, Option.map_some]
    cases henabled : e.row.enabled with
    | true =>
      rw [henabled, eq_self, true_and] at hdropped
      rw [if_congr hdropped rfl rfl]
    | false => rw [Entry.disabled_eq henabled, ite_self, ite_self]

section
variable {pack : Id} {listed : List Id} {n : Nat}

/-- A document of another pack, or one that is listed, stays as it is. -/
theorem entryAt_of_listed (hs : s.Sound) (h : Catalog.disableUnlisted pack listed s = .ok (n, s'))
    (hk : k.1 = pack → ∀ e, s.entryAt k = some e → e.row.id ∈ listed) :
    s'.entryAt k = s.entryAt k := by
  rw [(lookup_disableUnlisted hs h).2]
  cases he : s.entryAt k with
  | none => rfl
  | some e =>
    have hpack : e.row.pack = k.1 := congrArg Prod.fst (row_of_entryAt he).2.1
    rw [Option.map_some, if_neg fun hdrop => hdrop.2 (hk (hpack.symm.trans hdrop.1) e he)]

/-- The other documents of the pack are disabled. -/
theorem entryAt_of_unlisted (hs : s.Sound) (h : Catalog.disableUnlisted pack listed s = .ok (n, s'))
    (hk : k.1 = pack) (hunlisted : ∀ e, s.entryAt k = some e → e.row.id ∉ listed) :
    s'.entryAt k = (s.entryAt k).map Entry.disabled := by
  rw [(lookup_disableUnlisted hs h).2]
  cases he : s.entryAt k with
  | none => rfl
  | some e =>
    have hpack : e.row.pack = k.1 := congrArg Prod.fst (row_of_entryAt he).2.1
    rw [Option.map_some, if_pos ⟨hpack.trans hk, hunlisted e he⟩, Option.map_some]

end

/-! ## Packs -/

/-- Every pack after one was added or changed. -/
theorem packAt_into (p : NewPack) (s : Store) (code : String) :
    packAt { s with packs := p.into s.packs } code =
      if p.code = code then
        some (p.row (((s.packAt code).map PackRow.id).getD s.packs.next))
      else s.packAt code := by
  unfold packAt NewPack.into
  by_cases hany : s.packs.rows.any fun row => row.code == p.code
  · have hfind := find?_change (t := s.packs) (p := fun row : PackRow => row.code == code)
      (f := fun row => p.row row.id) fun row (h : row.code == p.code) =>
        congrArg (· == code) (beq_iff_eq.1 h).symm
    rw [if_pos hany]
    refine hfind.trans ?_
    by_cases hcode : p.code = code
    · subst hcode
      obtain ⟨row, hrow, hc⟩ := List.any_eq_true.1 hany
      cases hf : s.packs.rows.find? fun row => row.code == p.code with
      | none => exact absurd hc (List.find?_eq_none.1 hf row hrow)
      | some row =>
        have hc : row.code = p.code := by simpa using List.find?_some hf
        simp [hc]
    · rw [if_neg hcode]
      cases hf : s.packs.rows.find? fun row => row.code == code with
      | none => rfl
      | some row =>
        have hc : row.code = code := by simpa using List.find?_some hf
        simp [hc, Ne.symm hcode]
  · rw [if_neg hany, rows_push, List.find?_append]
    by_cases hcode : p.code = code
    · subst hcode
      have hnone : (s.packs.rows.find? fun row => row.code == p.code) = none := by
        simpa using hany
      simp [hnone, NewPack.row]
    · simp [hcode, NewPack.row]

theorem readPack_row (p : NewPack) (id : Id) : readPack (p.row id) =
    .ok ⟨id, p.code, p.name, p.active, p.defaultFormat, p.fallbackFormat⟩ := by
  unfold readPack NewPack.row
  cases p.fallbackFormat <;> rfl

/-- What adding or changing a pack does to packs and entries. -/
theorem lookup_upsertPack {p : NewPack} {r : Pack} (h : upsertPack p s = .ok (r, s')) :
    s'.packAt p.code = some (p.row r.id) ∧
      (∀ row, s.packAt p.code = some row → row.id = r.id) ∧
      (∀ code ≠ p.code, s'.packAt code = s.packAt code) ∧
      ∀ k, s'.entryAt k = s.entryAt k := by
  obtain ⟨rfl, hread⟩ := upsertPack_ok h
  have hat := packAt_into p s p.code
  rw [if_pos rfl] at hat
  have hid : r.id = ((s.packAt p.code).map PackRow.id).getD s.packs.next := by
    change (packAt { s with packs := p.into s.packs } p.code).mapM readPack = _ at hread
    rw [hat, Option.mapM_some, readPack_row] at hread
    cases hread
    rfl
  refine ⟨hid ▸ hat, fun row hrow => ?_, fun code hcode => ?_, fun _ => rfl⟩
  · rw [hid, hrow]
    rfl
  · rw [packAt_into, if_neg (Ne.symm hcode)]

end Store

/-! ## Edits -/

namespace History

variable {s s' : Store} {d : Id} {edit : Edit} {signature : Signature} {change : ChangeType}
  {note : String} {r : Version}

theorem packs_edited (s : Store) (d : Id) (edit : Edit) : (s.edited d edit).packs = s.packs := by
  obtain ⟨_ | t, _ | rules⟩ := edit <;> rfl

theorem documents_edited (s : Store) (d : Id) (edit : Edit) :
    (s.edited d edit).documents = s.documents.change (fun row => row.id == d) fun row =>
      { row with template := edit.template.getD row.template } := by
  obtain ⟨_ | t, rules⟩ := edit
  · have hid : s.documents = s.documents.change (fun row => row.id == d) fun row => row := by
      simp [Table.change]
    cases rules <;> exact hid
  · cases rules <;> rfl

/-- What a commit does to packs and entries. -/
theorem Commit.lookup (h : Commit s d edit signature change note r s') :
    s'.packs = s.packs ∧ ∀ k, s'.entryAt k = (s.entryAt k).map fun e =>
      if e.row.id = d then
        ⟨{ e.row with template := edit.template.getD e.row.template }, s'.ruleRows d,
          s'.versionRows d⟩
      else e := by
  have hdocuments : s'.documents = s.documents.change (fun row => row.id == d) fun row =>
      { row with template := edit.template.getD row.template } := by
    rw [h.after, ← documents_edited]
    rfl
  have hrow : ∀ k, s'.row? k = (s.row? k).map fun row =>
      if row.id == d then { row with template := edit.template.getD row.template } else row := by
    intro k
    unfold row?
    rw [hdocuments]
    exact find?_change (p := fun row : DocumentRow => row.key = k) fun _ _ => rfl
  refine ⟨?_, fun k => ?_⟩
  · rw [h.after, ← packs_edited s d edit]
    rfl
  · unfold entryAt
    rw [hrow, Option.map_map, Option.map_map]
    congr 1
    funext row
    by_cases hid : row.id = d
    · simp [entryOf, hid]
    · simp [entryOf, hid, h.ruleRows_of_ne hid, h.versionRows_of_ne hid]

end History

end Waybill
