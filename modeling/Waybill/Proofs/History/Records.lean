/-
  What is true of every history.

  * `Store.templateBytes` is the content of a document's live template;
  * `Store.Recorded`: the versions of a document are numbered from one on without a gap, each can be
    read, and the newest is what is live;
  * `Store.Quiet`: a step that leaves the versions, the rules and the templates alone;
  * `Store.Advances`: a step that keeps every history and every version in it.

  Statements: `recorded_empty`, `Recorded.commit` and `Recorded.quiet` (every step keeps it);
  `Recorded.nextNumber_lt_iff` (how many versions there is a number for);
  `Recorded.versionsOf_eq` and `Recorded.version?_eq` (the versions are read as they were recorded),
  `Recorded.live_eq` (the newest is what is live).
-/
import Waybill.Proofs.History.Commit

namespace Waybill

open Waybill.Mapping Waybill.History Waybill.Table

/-- A version of which the rules are settled and the template counts. -/
structure Version.Sealed (v : Version) : Prop where
  rules : Settled v.rules
  template : TemplateFile.present? v.template = v.template

theorem Version.row_injective : Function.Injective Version.row := by
  intro v w h
  cases v
  cases w
  simpa [row] using h

namespace Store

variable {s s' s'' : Store} {d e : Id}

/-! ## Histories -/

/-- The content of the live template of a document, if it has one. -/
def templateBytes (s : Store) (d : Id) : Option ByteArray :=
  (s.document? d).bind fun doc => doc.template.map (·.bytes)

/-- Every document has all of its history, and is live what its newest version says. -/
structure Recorded (s : Store) : Prop where
  sound : s.Sound
  rules : ∀ d, Settled (s.rulesOf d)
  versions : ∀ row ∈ s.versions.rows, ∃ v : Version, row = v.row ∧ v.Sealed
  numbers : ∀ d, (s.versionRows d).map (·.number) = List.range' 1 (s.versionRows d).length
  current : ∀ d, ∀ row ∈ (s.versionRows d).getLast?,
    row.snapshot = .rules (s.rulesOf d) ∧ row.template.map (·.bytes) = s.templateBytes d

theorem recorded_empty : Store.empty.Recorded where
  sound := sound_empty
  rules := by simp [rulesOf, ruleRows, Store.empty, Table.empty, inSequence, settled_nil]
  versions := by simp [Store.empty, Table.empty]
  numbers := fun _ => rfl
  current := by simp [versionRows, Store.empty, Table.empty]

theorem Recorded.nextNumber (hs : s.Recorded) (d : Id) :
    s.nextNumber d = (s.versionRows d).length + 1 :=
  nextNumber_of_numbers (hs.numbers d)

/-- The next number fits into 32 bits as long as a document has fewer than `2 ^ 32 - 1` versions. -/
theorem Recorded.nextNumber_lt_iff (hs : s.Recorded) (d : Id) :
    s.nextNumber d < 2 ^ 32 ↔ (s.versionRows d).length < 2 ^ 32 - 1 := by
  rw [hs.nextNumber]
  omega

/-! ## Reading a history -/

theorem newestFirst_eq_reverse {rows : List VersionRow} {n : Nat}
    (h : rows.map (·.number) = List.range' 1 n) :
    (rows.mergeSort fun a b => b.number ≤ a.number) = rows.reverse := by
  have hnodup : (rows.map (·.number)).Nodup := h ▸ List.nodup_range'
  have hlt : rows.Pairwise fun a b => a.number < b.number :=
    List.pairwise_map.1 (h ▸ List.pairwise_lt_range')
  have trans : ∀ a b c : VersionRow, decide (b.number ≤ a.number) → decide (c.number ≤ b.number) →
      decide (c.number ≤ a.number) := by
    intro a b c hab hbc
    exact decide_eq_true (Nat.le_trans (of_decide_eq_true hbc) (of_decide_eq_true hab))
  have total : ∀ a b : VersionRow,
      decide (b.number ≤ a.number) || decide (a.number ≤ b.number) := by
    intro a b
    simpa using Nat.le_total b.number a.number
  refine List.Perm.eq_of_pairwise (fun a b ha hb hab hba => ?_)
    (List.pairwise_mergeSort trans total rows) ?_
    ((List.mergeSort_perm ..).trans (List.reverse_perm rows).symm)
  · have hrow := (List.mergeSort_perm ..).mem_iff.1 ha
    exact List.inj_on_of_nodup_map hnodup hrow (List.mem_reverse.1 hb)
      (Nat.le_antisymm (of_decide_eq_true hba) (of_decide_eq_true hab))
  · exact List.pairwise_reverse.2 (hlt.imp fun h => decide_eq_true (Nat.le_of_lt h))

namespace Recorded

theorem sealed (hs : s.Recorded) {v : Version} (hrow : v.row ∈ s.versions.rows) : v.Sealed := by
  obtain ⟨w, hw, hsealed⟩ := hs.versions _ hrow
  exact Version.row_injective hw ▸ hsealed

/-- A version is read as it was recorded. -/
theorem version?_eq (hs : s.Recorded) {v : Version} (hrow : v.row ∈ s.versions.rows) :
    s.version? v.id = .ok (some v) := by
  refine (hs.sound.version?_eq hrow).trans ?_
  rw [readVersion_row, (hs.sealed hrow).template]
  rfl

theorem exists_versions (hs : s.Recorded) (d : Id) :
    ∃ vs : List Version, s.versionRows d = vs.map Version.row := by
  have hrows : ∀ row ∈ s.versionRows d, row ∈ Set.range Version.row := by
    intro row hrow
    obtain ⟨v, hv, -⟩ := hs.versions row (List.mem_filter.1 hrow).1
    exact ⟨v, hv.symm⟩
  have hmem : s.versionRows d ∈ Set.range (List.map Version.row) := by
    rw [Set.range_list_map]
    exact hrows
  obtain ⟨vs, hvs⟩ := hmem
  exact ⟨vs, hvs.symm⟩

theorem row_mem {vs : List Version} (hrows : s.versionRows d = vs.map Version.row) {v : Version}
    (hv : v ∈ vs) : v.row ∈ s.versions.rows := by
  have : v.row ∈ s.versionRows d := hrows ▸ List.mem_map_of_mem hv
  exact (List.mem_filter.1 this).1

section
variable {vs : List Version} (hs : s.Recorded) (hrows : s.versionRows d = vs.map Version.row)
include hs hrows

theorem map_number : vs.map (·.number) = List.range' 1 vs.length := by
  have h := hs.numbers d
  rw [hrows, List.map_map, List.length_map] at h
  exact h

/-- The versions of a document are listed as they are kept, newest first. -/
theorem versionsOf_eq : s.versionsOf d = .ok vs.reverse := by
  change ((s.versionRows d).mergeSort _).mapM readVersion = _
  rw [newestFirst_eq_reverse (hs.numbers d), hrows, ← List.map_reverse, mapM_eq_ok,
    List.forall₂_map_left_iff, List.forall₂_same]
  intro v hv
  have hrow := row_mem hrows (List.mem_reverse.1 hv)
  rw [readVersion_row, (hs.sealed hrow).template]

/-- What is live is what the newest version says. -/
theorem live_eq {v : Version} (hv : vs.getLast? = some v) :
    s.rulesOf d = v.rules ∧ s.templateBytes d = v.template.map (·.bytes) := by
  have hrow : v.row ∈ (s.versionRows d).getLast? := by
    rw [hrows, List.getLast?_map, hv]
    rfl
  obtain ⟨hrules, ht⟩ := hs.current d v.row hrow
  exact ⟨(Snapshot.rules.inj hrules).symm, ht.symm⟩

end

end Recorded

/-- Of versions numbered in order, the one with the greatest number is the last. -/
theorem getLast?_of_greatest {vs : List Version} {n : Nat}
    (h : vs.map (·.number) = List.range' 1 n) {v : Version} (hv : v ∈ vs)
    (hmax : ∀ w ∈ vs, w.number ≤ v.number) : vs.getLast? = some v := by
  rcases List.eq_nil_or_concat vs with rfl | ⟨init, last, rfl⟩
  · cases hv
  · rw [List.concat_eq_append] at *
    have hlt : (init ++ [last]).Pairwise fun a b => a.number < b.number :=
      List.pairwise_map.1 (h ▸ List.pairwise_lt_range')
    have hlast := (List.pairwise_append.1 hlt).2.2
    rcases List.mem_append.1 hv with hv | hv
    · have := hlast v hv last List.mem_cons_self
      have := hmax last (by simp)
      omega
    · rw [List.getLast?_concat, List.mem_singleton.1 hv]

/-! ## Commits -/

section
variable {edit : Edit} {signature : Signature} {change : ChangeType} {note : String} {r : Version}

theorem templateBytes_of_commit (h : Commit s d edit signature change note r s') :
    r.template.map (·.bytes) = s'.templateBytes d := by
  obtain ⟨doc, hdoc, hr⟩ := h.eq_snapshot
  rw [hr, templateBytes, hdoc, Option.bind_some, Option.map_map]
  rfl

theorem settled_of_commit (hs : s.Recorded) (h : Commit s d edit signature change note r s')
    (e : Id) : Settled (s'.rulesOf e) := by
  by_cases he : e = d
  · rw [he, h.rulesOf]
    rcases hrules : edit.rules with - | rules
    · exact hs.rules d
    · exact settled_inSequence (h.checked rules hrules)
  · rw [rulesOf, h.ruleRows_of_ne he]
    exact hs.rules e

theorem sealed_of_commit (hs : s.Recorded) (h : Commit s d edit signature change note r s') :
    r.Sealed := by
  refine ⟨h.rules_eq ▸ settled_of_commit hs h d, ?_⟩
  obtain ⟨doc, hdoc, hr⟩ := h.eq_snapshot
  rw [hr, TemplateFile.present?_map_name, document?_template hdoc]

/-- **A commit keeps every history.** -/
theorem Recorded.commit (hs : s.Recorded) (h : Commit s d edit signature change note r s') :
    s'.Recorded where
  sound := h.sound hs.sound
  rules := settled_of_commit hs h
  versions := by
    intro row hrow
    rw [h.versions] at hrow
    rcases mem_push.1 hrow with hrow | rfl
    · exact hs.versions row hrow
    · exact ⟨r, rfl, sealed_of_commit hs h⟩
  numbers := by
    intro e
    by_cases he : e = d
    · have hnext := hs.nextNumber d
      rw [he, h.versionRows, List.map_append, hs.numbers d, List.length_append,
        List.length_singleton, List.range'_1_concat, Nat.add_comm 1, ← hnext, ← h.number_eq]
      rfl
    · rw [h.versionRows_of_ne he]
      exact hs.numbers e
  current := by
    intro e row hrow
    by_cases he : e = d
    · rw [he, h.versionRows, List.getLast?_concat] at hrow
      rw [← Option.some.inj hrow, he]
      exact ⟨congrArg Snapshot.rules h.rules_eq, templateBytes_of_commit h⟩
    · rw [h.versionRows_of_ne he] at hrow
      rw [rulesOf, h.ruleRows_of_ne he, templateBytes, h.document?_of_ne he]
      exact hs.current e row hrow

end

/-! ## Quiet steps -/

/-- The versions, the rules and the templates stay; documents may be added. -/
structure Quiet (s s' : Store) : Prop where
  sound : s.Sound → s'.Sound
  rules : s'.rules = s.rules
  versions : s'.versions = s.versions
  templates : ∀ row ∈ s.documents.rows,
    ∃ row' ∈ s'.documents.rows, row'.id = row.id ∧ row'.template = row.template

theorem Quiet.refl (s : Store) : Quiet s s :=
  ⟨id, rfl, rfl, fun row hrow => ⟨row, hrow, rfl, rfl⟩⟩

theorem Quiet.trans (h : Quiet s s') (h' : Quiet s' s'') : Quiet s s'' where
  sound := h'.sound ∘ h.sound
  rules := h'.rules.trans h.rules
  versions := h'.versions.trans h.versions
  templates := by
    intro row hrow
    obtain ⟨row', hrow', hid, ht⟩ := h.templates row hrow
    obtain ⟨row'', hrow'', hid', ht'⟩ := h'.templates row' hrow'
    exact ⟨row'', hrow'', hid'.trans hid, ht'.trans ht⟩

instance : IsPreorder Store Quiet where
  refl := Quiet.refl
  trans _ _ _ := Quiet.trans

theorem Sound.templateBytes_eq (hs : s.Sound) {row : DocumentRow} (hrow : row ∈ s.documents.rows) :
    s.templateBytes row.id = (TemplateFile.present? row.template).map (·.bytes) := by
  obtain ⟨doc, hdoc⟩ := Option.isSome_iff_exists.1 (hs.document?_isSome.2 ⟨row, hrow, rfl⟩)
  rw [templateBytes, hdoc]
  rw [document?, hs.documents.find?_eq hrow] at hdoc
  obtain ⟨p, -, rfl⟩ := Option.map_eq_some_iff.1 hdoc
  rfl

/-- **A quiet step keeps every history.** -/
theorem Recorded.quiet (hs : s.Recorded) (h : Quiet s s') : s'.Recorded where
  sound := h.sound hs.sound
  rules := by
    intro e
    rw [rulesOf, ruleRows, h.rules]
    exact hs.rules e
  versions := by rw [h.versions]; exact hs.versions
  numbers := by
    intro e
    rw [versionRows, h.versions]
    exact hs.numbers e
  current := by
    intro e row hrow
    rw [versionRows, h.versions] at hrow
    obtain ⟨hrules, ht⟩ := hs.current e row hrow
    refine ⟨by rw [hrules, rulesOf, rulesOf, ruleRows, ruleRows, h.rules], ht.trans ?_⟩
    -- the document of a version was there before
    have hmem := List.mem_filter.1 (List.mem_of_mem_getLast? hrow)
    obtain ⟨doc, hdoc, hid⟩ := hs.sound.versionDocuments row hmem.1
    obtain ⟨doc', hdoc', hid', ht'⟩ := h.templates doc hdoc
    have he : doc.id = e := hid.trans (beq_iff_eq.1 hmem.2)
    rw [← he, hs.sound.templateBytes_eq hdoc, ← hid',
      (h.sound hs.sound).templateBytes_eq hdoc', ht']

/-! ## Advances -/

/-- A step that keeps the histories and every version in them. -/
def Advances (s s' : Store) : Prop :=
  s.Recorded → s'.Recorded ∧ s.versions.rows <+: s'.versions.rows

theorem Advances.refl (s : Store) : Advances s s := fun hs => ⟨hs, List.prefix_refl _⟩

theorem Advances.trans (h : Advances s s') (h' : Advances s' s'') : Advances s s'' := by
  intro hs
  obtain ⟨hs', hp⟩ := h hs
  obtain ⟨hs'', hp'⟩ := h' hs'
  exact ⟨hs'', hp.trans hp'⟩

instance : IsPreorder Store Advances where
  refl := Advances.refl
  trans _ _ _ := Advances.trans

theorem Quiet.advances (h : Quiet s s') : Advances s s' :=
  fun hs => ⟨hs.quiet h, h.versions ▸ List.prefix_refl _⟩

end Store

theorem History.Commit.advances {s s' : Store} {d : Id} {edit : Edit} {signature : Signature}
    {change : ChangeType} {note : String} {r : Version}
    (h : Commit s d edit signature change note r s') : Store.Advances s s' := by
  refine fun hs => ⟨hs.commit h, ?_⟩
  rw [h.versions, rows_push]
  exact List.prefix_append _ _

end Waybill
