/-
  Histories over time: what the versions of a document promise after any operations.

  Statements: `live_eq_newest_version` (the newest version is what is live),
  `versions_gapless_append_only` (versions are numbered without a gap, and stay), and
  `restore_recovers` (a version can always be restored, and is live again then).
-/
import Waybill.Proofs.Operation

namespace Waybill.History

open Waybill.Mapping Waybill.Store Waybill.Generation

variable {s s' : Store} {d : Id}

/-! ## Versions that stay -/

/-- The versions of a document are among those after an advance, as the oldest. -/
theorem exists_versions_of_advances (hs : s.Recorded) (hs' : s'.Recorded)
    (hp : s.versions.rows <+: s'.versions.rows) (d : Id) : ∃ vs new : List Version,
      s.versionRows d = vs.map Version.row ∧ s'.versionRows d = (vs ++ new).map Version.row := by
  obtain ⟨vs, hvs⟩ := hs.exists_versions d
  obtain ⟨vs', hvs'⟩ := hs'.exists_versions d
  obtain ⟨rows, hrows⟩ : s.versionRows d <+: s'.versionRows d := hp.filter _
  rw [hvs, hvs', eq_comm, List.map_eq_append_iff] at hrows
  obtain ⟨old, new, rfl, hold, -⟩ := hrows
  rw [List.map_injective_iff.2 Version.row_injective hold] at hvs'
  exact ⟨vs, new, hvs, hvs'⟩

section
variable {edit : Edit} {signature : Signature} {change : ChangeType} {note : String} {r : Version}

/-- A commit adds its version to those of the document, and leaves those of the others. -/
theorem Commit.versionsOf (hs : s.Recorded) (h : Commit s d edit signature change note r s') :
    ∃ old, s.versionsOf d = .ok old ∧ s'.versionsOf d = .ok (r :: old) ∧
      r.number = old.length + 1 := by
  obtain ⟨vs, hvs⟩ := hs.exists_versions d
  have hvs' : s'.versionRows d = (vs ++ [r]).map Version.row := by
    rw [h.versionRows, hvs, List.map_append]
    rfl
  refine ⟨vs.reverse, hs.versionsOf_eq hvs, ?_, ?_⟩
  · rw [(hs.commit h).versionsOf_eq hvs', List.reverse_append]
    rfl
  · rw [h.number_eq, hs.nextNumber, hvs, List.length_map,
      List.length_reverse]

theorem Commit.versionsOf_of_ne (h : Commit s d edit signature change note r s') {e : Id}
    (he : e ≠ d) : s'.versionsOf e = s.versionsOf e := by
  change ((s'.versionRows e).mergeSort _).mapM readVersion = _
  rw [h.versionRows_of_ne he]
  rfl

end

/-! ## The newest version -/

/-- **The newest version of a document is what is live**, whatever was done to the store. -/
theorem live_eq_newest_version (ops : List Operation) (id : Id) (doc : Document)
    (hdoc : (World.start.runAll ops).store.document? id = some doc) :
    ∃ vs, (World.start.runAll ops).store.versionsOf id = .ok vs ∧
      ∀ v ∈ vs, (∀ w ∈ vs, w.number ≤ v.number) →
        (World.start.runAll ops).store.rulesOf id = v.rules ∧
          doc.template.map (·.bytes) = v.template.map (·.bytes) := by
  have hs := recorded_runAll ops
  obtain ⟨vs, hvs⟩ := hs.exists_versions id
  refine ⟨vs.reverse, hs.versionsOf_eq hvs, fun v hv hmax => ?_⟩
  have hlast := getLast?_of_greatest (hs.map_number hvs) (List.mem_reverse.1 hv)
    fun w hw => hmax w (List.mem_reverse.2 hw)
  obtain ⟨hrules, ht⟩ := hs.live_eq hvs hlast
  rw [templateBytes, hdoc, Option.bind_some] at ht
  exact ⟨hrules, ht⟩

theorem sample_live_eq_newest :
    (World.start.runAll [sampleImport]).store.rulesOf 1 = sampleVersion.rules ∧
      sampleDocument.template.map (·.bytes) = sampleVersion.template.map (·.bytes) := by
  obtain ⟨vs, hvs, h⟩ := live_eq_newest_version [sampleImport] 1 sampleDocument sample_document
  obtain rfl : [sampleVersion] = vs := Except.ok.inj (sample_versions.symm.trans hvs)
  exact h sampleVersion List.mem_cons_self (by simp)

/-! ## The numbers -/

/-- **Versions are numbered without a gap, and stay.**  Listed, they count down to one; every
    operation leaves those that were there; a change that succeeds adds the next version to its
    document and none to another, and one that fails leaves the store as it was. -/
theorem versions_gapless_append_only (ops : List Operation) :
    let s := (World.start.runAll ops).store
    (∀ d, ∃ vs, s.versionsOf d = .ok vs ∧
      vs.map (·.number) = (List.range' 1 vs.length).reverse) ∧
    (∀ op : Operation, s.versions.rows <+: (op.run (World.start.runAll ops)).store.versions.rows ∧
      ∀ d, ∃ old new, s.versionsOf d = .ok old ∧
        (op.run (World.start.runAll ops)).store.versionsOf d = .ok (new ++ old)) ∧
    ∀ (c : Change) (signature : Signature) (note : String),
      match s.run (c.action signature note) with
      | (.error _, s') => s' = s
      | (.ok r, s') => ∃ d old, c.document? s = some d ∧ s.versionsOf d = .ok old ∧
        s'.versionsOf d = .ok (r :: old) ∧ r.number = old.length + 1 ∧
          ∀ other, other ≠ d → s'.versionsOf other = s.versionsOf other := by
  intro s
  have hs : s.Recorded := recorded_runAll ops
  refine ⟨fun d => ?_, fun op => ?_, fun c signature note => ?_⟩
  · obtain ⟨vs, hvs⟩ := hs.exists_versions d
    refine ⟨vs.reverse, hs.versionsOf_eq hvs, ?_⟩
    rw [List.map_reverse, hs.map_number hvs, List.length_reverse]
  · obtain ⟨hs', hp⟩ := advances_run op (World.start.runAll ops) hs
    refine ⟨hp, fun d => ?_⟩
    obtain ⟨vs, new, hvs, hvs'⟩ := exists_versions_of_advances hs hs' hp d
    refine ⟨vs.reverse, new.reverse, hs.versionsOf_eq hvs, ?_⟩
    rw [hs'.versionsOf_eq hvs', List.reverse_append]
  · rcases Action.run_cases s (c.action signature note) with ⟨r, s', h, hrun⟩ | ⟨e, -, hrun⟩
    · rw [hrun]
      obtain ⟨d, edit, change, hedit, hcommit⟩ := (Change.eq_ok_iff hs).1 h
      obtain ⟨old, hold, hnew, hnum⟩ := hcommit.versionsOf hs
      exact ⟨d, old, by rw [Change.document?, hedit]; rfl, hold, hnew, hnum,
        fun other => hcommit.versionsOf_of_ne⟩
    · rw [hrun]

/-! ## Restoring -/

/-- Restoring a version that was recorded makes its template and its rules live again. -/
theorem restore_recorded (hs : s.Recorded) {v : Version} (hrow : v.row ∈ s.versions.rows)
    (signature : Signature) (note : String) : ∃ r s' doc,
      Commit s v.document ⟨some v.template, some v.rules⟩ signature .restore note r s' ∧
      restore v.id signature note s = .ok (r, s') ∧ s'.rulesOf v.document = v.rules ∧
      s'.document? v.document = some doc ∧ doc.template = v.template := by
  have hv := hs.version?_eq hrow
  have hsealed := hs.sealed hrow
  have hdoc := document?_of_version? hs.sound hv
  have hchecked : ∀ rules ∈ some v.rules, checkRules rules = .ok () := by
    simpa using hsealed.rules.checkRules
  obtain ⟨r, s', h⟩ : ∃ r s',
      Commit s v.document ⟨some v.template, some v.rules⟩ signature .restore note r s' :=
    commit_exists hdoc hchecked signature .restore note
  obtain ⟨doc, hdoc⟩ := Option.isSome_iff_exists.1 hdoc
  refine ⟨r, s', { doc with template := v.template }, h, ?_, ?_, ?_, rfl⟩
  · exact (restore_eq_ok hs.sound hv hsealed.rules.checkRules).2 h
  · rw [h.rulesOf, Option.map_some, Option.getD_some, hsealed.rules.normalizedAll,
      hsealed.rules.inSequence]
  · rw [h.document?, hdoc, Option.map_some, Option.map_some, Option.getD_some, hsealed.template]

/-- **Restoring is an exact undo**: whatever was done since a version was the newest of its
    document, restoring it succeeds, brings back the rules and the template that were live then,
    and leaves every other document alone. -/
theorem restore_recovers (before after : List Operation) (d : Id) (v : Version)
    (older : List Version)
    (hv : (World.start.runAll before).store.versionsOf d = .ok (v :: older))
    (signature : Signature) (note : String) :
    let s := (World.start.runAll before).store
    let s' := (World.start.runAll (before ++ after)).store
    ∃ r s'' doc doc'' history,
      restore v.id signature note s' = .ok (r, s'') ∧
      s''.rulesOf d = s.rulesOf d ∧
      s.document? d = some doc ∧ s''.document? d = some doc'' ∧
      doc''.template.map (·.bytes) = doc.template.map (·.bytes) ∧
      r.change = .restore ∧ r.rules = v.rules ∧
      r.template.map (·.bytes) = v.template.map (·.bytes) ∧
      s'.versionsOf d = .ok history ∧ s''.versionsOf d = .ok (r :: history) ∧
      ∀ other, other ≠ d → s''.document? other = s'.document? other ∧
        s''.ruleRows other = s'.ruleRows other ∧ s''.versionsOf other = s'.versionsOf other := by
  intro s s'
  have hs : s.Recorded := recorded_runAll before
  obtain ⟨hs', hp⟩ : s'.Recorded ∧ s.versions.rows <+: s'.versions.rows := by
    have h := advances_runAll after (World.start.runAll before) hs
    rwa [← runAll_append] at h
  obtain ⟨vs, hvs⟩ := hs.exists_versions d
  have hlist : vs = older.reverse ++ [v] := by
    have h := (hs.versionsOf_eq hvs).symm.trans hv
    rw [← List.reverse_reverse vs, Except.ok.inj h, List.reverse_cons]
  have hmem : v ∈ vs := by rw [hlist]; simp
  obtain ⟨hrules, hbytes⟩ := hs.live_eq hvs (by rw [hlist, List.getLast?_concat])
  have hd : v.document = d := by
    have : v.row ∈ s.versionRows d := hvs ▸ List.mem_map_of_mem hmem
    exact beq_iff_eq.1 (List.mem_filter.1 this).2
  subst hd
  obtain ⟨doc, hdoc⟩ := Option.isSome_iff_exists.1
    (document?_of_version? hs.sound (hs.version?_eq (Recorded.row_mem hvs hmem)))
  obtain ⟨r, s'', doc'', hcommit, hrestore, hrules'', hdoc'', ht''⟩ :=
    restore_recorded hs' (hp.subset (Recorded.row_mem hvs hmem)) signature note
  obtain ⟨history, hhistory, hnew, -⟩ := hcommit.versionsOf hs'
  have ht : doc.template.map (·.bytes) = v.template.map (·.bytes) := by
    rw [← hbytes, templateBytes, hdoc, Option.bind_some]
  refine ⟨r, s'', doc, doc'', history, hrestore, hrules''.trans hrules.symm, hdoc, hdoc'',
    ?_, ?_, ?_, ?_, hhistory, hnew, fun other hother => ⟨hcommit.document?_of_ne hother,
      hcommit.ruleRows_of_ne hother, hcommit.versionsOf_of_ne hother⟩⟩
  · rw [ht'', ht]
  · obtain ⟨_, _, hr⟩ := hcommit.eq_snapshot
    rw [hr]
  · rw [hcommit.rules_eq, hrules'']
  · rw [templateBytes_of_commit hcommit, templateBytes, hdoc'', Option.bind_some, ht'']

theorem sample_restore_recovers : ∃ r s'',
    restore 1 sampleSignature "" (World.start.runAll
      [sampleImport, .changing (.edit 1 ⟨some none, some []⟩) sampleSignature ""]).store =
        .ok (r, s'') ∧
    s''.rulesOf 1 = (World.start.runAll [sampleImport]).store.rulesOf 1 := by
  obtain ⟨r, s'', _, _, _, hrestore, hrules, -⟩ := restore_recovers [sampleImport]
    [.changing (.edit 1 ⟨some none, some []⟩) sampleSignature ""] 1 sampleVersion []
    sample_versions sampleSignature ""
  exact ⟨r, s'', hrestore, hrules⟩

end Waybill.History
