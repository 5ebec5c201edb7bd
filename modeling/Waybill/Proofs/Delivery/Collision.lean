/-
  When two artifacts are delivered to one path.

  * `readings` are the moments that were read off the clock;
  * `held` is the file that the drive holds at a path: the last one that was stored there.

  Statements: `named_runAll` (the file of an artifact is named by a reading of the clock),
  `Intact.remotePath_eq` (where a delivered artifact went), `same_path_iff` (which artifacts went to
  one path), and `same_second_overwrites` (that this happens, and a file is lost).
-/
import Waybill.Proofs.Delivery.Integrity

namespace Waybill

open Waybill.Drive Waybill.Generation Waybill.Store

namespace Delivery

/-! ## Named by the clock -/

theorem past_run (op : Operation) (w : World) : w.past <+: (op.run w).past := by
  cases op with
  | importing | changing => exact List.prefix_refl _
  | generating around setting request => exact (generate setting request).keeps_past around w
  | processing around options => exact (process options).keeps_past around w

/-- The generation of the artifact failed, or its file is named by a reading of the clock. -/
def FailedOrNamed (past : List Event) (a : Artifact) : Prop :=
  a.status = .generationFailed ∨ Named past a

theorem FailedOrNamed.mono {past past' : List Event} (h : past <+: past') {a : Artifact}
    (ha : FailedOrNamed past a) : FailedOrNamed past' a := by
  refine ha.imp_right fun hnamed => ?_
  obtain ⟨now, hnow, hname⟩ := hnamed
  exact ⟨now, h.subset hnow, hname⟩

theorem Attempt.named_after {past : List Event} {x : Attempt} (h : Named past x.artifact) :
    Named past x.after := by
  obtain ⟨now, hnow, hname⟩ := h
  refine ⟨now, hnow, ?_⟩
  rcases x.after_cases with ⟨_, -, hafter⟩ | ⟨_, _, -, -, hafter⟩ <;> rw [hafter] <;> exact hname

theorem named_run {w : World} (hs : w.store.Sound)
    (h : ∀ row ∈ w.store.artifacts.rows, FailedOrNamed w.past row.artifact) (op : Operation) :
    ∀ row ∈ (op.run w).store.artifacts.rows, FailedOrNamed (op.run w).past row.artifact := by
  intro row hrow
  rcases mem_rows_run hs op hrow with ⟨-, hold⟩ | ⟨x, hx, rfl⟩ | hadding
  · exact (h row hold).mono (past_run op w)
  · have hbefore := (h _ ((batch_attempts hs op).has x hx)).mono (past_run op w)
    rcases hbefore with hfailed | hnamed
    · rcases status_of_mem_attempts hs hx with hstatus | hstatus <;>
        rw [hstatus] at hfailed <;> cases hfailed
    · exact Or.inr (Attempt.named_after hnamed)
  · cases hadding with
    | left hrun hleft =>
      rw [Operation.run, hrun]
      cases hleft with
      | finished => exact Or.inr (named_of_generate hs hrun)
      | abandoned => exact Or.inl rfl

theorem named_runAll {w : World} (hs : w.store.Sound)
    (h : ∀ row ∈ w.store.artifacts.rows, FailedOrNamed w.past row.artifact)
    (ops : List Operation) :
    ∀ row ∈ (w.runAll ops).store.artifacts.rows,
      FailedOrNamed (w.runAll ops).past row.artifact := by
  induction ops generalizing w with
  | nil => exact h
  | cons op ops ih => exact ih (sound_run hs op) (named_run hs h op)

/-! ## Where an artifact went -/

/-- A delivered artifact went to its path below the folder. -/
theorem Intact.remotePath_eq {dir : String} {log : List Attempt} {given : List Artifact} {w : World}
    (h : Intact dir log given w.store) (hs : w.store.Sound) {a : Artifact} (ha : w.store.Has a)
    (hsynced : a.status = .synced) : a.remotePath = Delivery.remotePath a dir := by
  obtain ⟨-, hnoted, hgiven⟩ := h.noted _ ha
  cases hnoted with
  | abandoned hstatus | waiting hstatus | exhausted hstatus =>
    rw [hsynced] at hstatus
    cases hstatus
  | delivered _ _ hlog =>
    obtain ⟨x, hx, hid, hok, -⟩ := hlog
    have horigin : x.artifact.origin = a.origin :=
      h.eq_of_id_eq hs (h.attempted x hx).1 (hgiven (by simp [hsynced])) hid
    rw [h.path x hx _ hok, ← remotePath_origin, horigin, remotePath_origin]

/-- **Which artifacts are delivered to one path.**  When every run of the queue delivers below one
    folder, and the clock reads no year before the first, two delivered artifacts went to one path
    exactly when they have the same folders, their names keep the same of the packs, and they were
    made within one second. -/
theorem same_path_iff (w₀ : World) (hs : w₀.store.Sound) (hempty : w₀.store.artifacts.rows = [])
    (dir : String) (ops : List Operation) (hops : ∀ op ∈ ops, op.Below dir)
    (hyears : ∀ now, .now now ∈ (w₀.runAll ops).past → 0 ≤ now.moment.date.year)
    {a b : Artifact} (ha : (w₀.runAll ops).store.Has a) (hb : (w₀.runAll ops).store.Has b)
    (hsynced : a.status = .synced) (hsynced' : b.status = .synced) :
    ∃ made made', .now made ∈ (w₀.runAll ops).past ∧ .now made' ∈ (w₀.runAll ops).past ∧
      a.pdfName = some (fileName a.packCode made) ∧
      b.pdfName = some (fileName b.packCode made') ∧
      (a.remotePath = b.remotePath ↔ folders a = folders b ∧
        nameStem a.packCode = nameStem b.packCode ∧ made.toSecond = made'.toSecond) := by
  have hw : (w₀.runAll ops).store.Sound := sound_runAll hs ops
  have hintact : Intact dir _ _ (w₀.runAll ops).store := Intact.runAll hs (.nothing dir hempty) hops
  have hnamed : ∀ {c : Artifact}, (w₀.runAll ops).store.Has c → c.status = .synced →
      Named (w₀.runAll ops).past c := by
    intro c hc hstatus
    refine (named_runAll hs (by simp [hempty]) ops _ hc).resolve_left fun hfailed => ?_
    rw [hstatus] at hfailed
    cases hfailed
  obtain ⟨made, hmade, hname⟩ := hnamed ha hsynced
  obtain ⟨made', hmade', hname'⟩ := hnamed hb hsynced'
  refine ⟨made, made', hmade, hmade', hname, hname', ?_⟩
  rw [hintact.remotePath_eq hw ha hsynced, hintact.remotePath_eq hw hb hsynced',
    remotePath_eq_iff (slash_not_mem_pdfName hname) (slash_not_mem_pdfName hname'),
    pdfName_eq_iff hname hname' (hyears _ hmade) (hyears _ hmade')]

/-! ## A sample -/

/-- What was read off the clock. -/
def readings (events : List Event) : List Calendar.Instant :=
  events.filterMap fun
    | .now answer => some answer
    | _ => none

/-- The file that the drive holds at a path: the last one that was stored there. -/
def held (us : List Upload) (path : String) : Option ByteArray :=
  ((us.filter fun u => u.path = path && u.answer.isOk).getLast?).map (·.pdf)

/-- Surroundings where each conversion gives another file. -/
def numbering : Surroundings :=
  { uploading (.ok ()) with convert := fun past _ _ _ => .ok ⟨#[past.length.toUInt8]⟩ }

/-- Twice a generation of the pack, each with a run of the queue after it. -/
def sampleTwins : List Operation :=
  blankImport :: (List.replicate 2 [.generating numbering sampleSetting (.ofPack "A"),
    .processing numbering ⟨none, false, none, none, "work"⟩]).flatten

theorem mem_readings {events : List Event} {now : Calendar.Instant} (h : .now now ∈ events) :
    now ∈ readings events :=
  List.mem_filterMap.2 ⟨_, h, rfl⟩

theorem below_sampleTwins : ∀ op ∈ sampleTwins, op.Below "work" := by
  simp [sampleTwins, blankImport, Operation.Below]

/-- The clock stands still. -/
theorem readings_sampleTwins :
    readings (World.start.runAll sampleTwins).past = List.replicate 4 (.ofEpoch 0 0) := by
  decide +kernel

theorem exists_sampleTwins : ∃ a b, (World.start.runAll sampleTwins).store.Has a ∧
    (World.start.runAll sampleTwins).store.Has b ∧ a.id = 1 ∧ b.id = 2 ∧ a.status = .synced ∧
    b.status = .synced ∧ a.remotePath = "work/packs/A/print-pack-A-19700101000000.pdf" ∧
    b.remotePath = a.remotePath ∧ a.pdf = some ⟨#[2]⟩ := by
  have hrows : ((World.start.runAll sampleTwins).store.artifacts.rows.map fun row =>
      (row.unknown, row.artifact.id, row.artifact.status, row.artifact.remotePath,
        row.artifact.pdf)) =
      [(none, 1, .synced, "work/packs/A/print-pack-A-19700101000000.pdf", some ⟨#[2]⟩),
        (none, 2, .synced, "work/packs/A/print-pack-A-19700101000000.pdf", some ⟨#[7]⟩)] := by
    decide +kernel
  unfold Store.Has
  generalize (World.start.runAll sampleTwins).store.artifacts.rows = rows at hrows ⊢
  obtain ⟨⟨a, unknown⟩, ⟨b, unknown'⟩, rfl⟩ : ∃ row row', rows = [row, row'] :=
    List.length_eq_two.1 (by simpa using congrArg List.length hrows)
  obtain ⟨⟨rfl, haid, hastatus, hapath, hapdf⟩, rfl, hbid, hbstatus, hbpath, -⟩ := by
    simpa using hrows
  exact ⟨a, b, by simp, by simp, haid, hbid, hastatus, hbstatus, hapath, hbpath.trans hapath.symm,
    hapdf⟩

theorem sample_same_path : ∃ a b made made', (World.start.runAll sampleTwins).store.Has a ∧
    (World.start.runAll sampleTwins).store.Has b ∧ a.id ≠ b.id ∧
    a.pdfName = some (fileName a.packCode made) ∧ b.pdfName = some (fileName b.packCode made') ∧
    a.remotePath = b.remotePath ∧ made.toSecond = made'.toSecond := by
  have hyears : ∀ now, .now now ∈ (World.start.runAll sampleTwins).past →
      0 ≤ now.moment.date.year := by
    intro now hnow
    have hmem := mem_readings hnow
    rw [readings_sampleTwins] at hmem
    rw [List.eq_of_mem_replicate hmem]
    decide
  obtain ⟨a, b, ha, hb, haid, hbid, hastatus, hbstatus, -, hpath, -⟩ := exists_sampleTwins
  obtain ⟨made, made', -, -, hname, hname', hiff⟩ := same_path_iff World.start sound_empty rfl
    "work" sampleTwins below_sampleTwins hyears ha hb hastatus hbstatus
  exact ⟨a, b, made, made', ha, hb, by rw [haid, hbid]; decide, hname, hname', hpath.symm,
    (hiff.1 hpath.symm).2.2⟩

/-- **An artifact that was delivered may be overwritten by another.**  The clock never goes back;
    two artifacts of one second went to one path, and the drive no longer holds the first. -/
theorem same_second_overwrites : (∀ op ∈ sampleTwins, op.Below "work") ∧
    (readings (World.start.runAll sampleTwins).past).Pairwise (fun i j => i.stored ≤ j.stored) ∧
    ∃ a b, (World.start.runAll sampleTwins).store.Has a ∧
      (World.start.runAll sampleTwins).store.Has b ∧ a.id ≠ b.id ∧ a.status = .synced ∧
      b.status = .synced ∧ a.remotePath = b.remotePath ∧
      held (uploads (World.start.runAll sampleTwins).past) a.remotePath ≠ a.pdf := by
  have hheld : held (uploads (World.start.runAll sampleTwins).past)
      "work/packs/A/print-pack-A-19700101000000.pdf" = some ⟨#[7]⟩ := by
    decide +kernel
  obtain ⟨a, b, ha, hb, haid, hbid, hastatus, hbstatus, hapath, hpath, hpdf⟩ := exists_sampleTwins
  refine ⟨below_sampleTwins, ?_, a, b, ha, hb, by rw [haid, hbid]; decide, hastatus, hbstatus,
    hpath.symm, ?_⟩
  · rw [readings_sampleTwins]
    exact List.pairwise_replicate.2 (Or.inr (String.le_refl _))
  · rw [hapath, hheld, hpdf]
    decide

end Delivery

end Waybill
