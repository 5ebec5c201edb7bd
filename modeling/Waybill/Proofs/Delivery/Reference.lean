/-
  A run of the queue is what it is meant to be.

  A run handles the artifacts that may be delivered, the oldest first, up to its limit.  What
  becomes of each is told by the artifact itself and by the answer to its own upload, as if the
  others were not there.

  * `Options.Eligible`: the artifact of a row may be delivered;
  * `Artifact.Earlier`: the artifact was created before another, or with it and has a lower number;
  * `Performs`: what a run does with a queue of artifacts.

  Statements: `exists_queue` (what a run selects), `run_performs`.
-/
import Waybill.Proofs.Calendar.Order
import Waybill.Proofs.Delivery.Log

namespace Waybill

open Waybill.Calendar Waybill.Generation Waybill.Store

/-- The artifact was created before another one, or at the same time and has a lower number. -/
def Artifact.Earlier (a b : Artifact) : Prop :=
  a.createdAt.numbers < b.createdAt.numbers ∨ a.createdAt = b.createdAt ∧ a.id < b.id

namespace Delivery

/-! ## The queue of a run -/

/-- The artifact of a row may be delivered: it waits, or it was given up and these are asked for. -/
def Options.Eligible (options : Options) (row : ArtifactRow) : Prop :=
  row.unknown = none ∧ (row.artifact.status = .syncPending ∨
    options.includeFailed = true ∧ row.artifact.status = .syncFailed)

instance (options : Options) : DecidablePred options.Eligible :=
  fun _ => inferInstanceAs (Decidable (_ ∧ _))

/-- The artifacts of a store that may be delivered. -/
def eligible (options : Options) (s : Store) : List Artifact :=
  (s.artifacts.rows.filter fun row => options.Eligible row).map (·.artifact)

section
variable {s : Store} {options : Options}

theorem eligible_iff (options : Options) (row : ArtifactRow) :
    (row.unknown.isNone && (wanted options.resolve).contains row.artifact.status) =
      decide (options.Eligible row) := by
  rw [Bool.eq_iff_iff, decide_eq_true_iff]
  simp [mem_wanted, Options.Eligible, Options.resolve]

/-- Rows of which the texts are sorted are sorted by their times. -/
theorem earlier_of_stored {a b : Artifact} (ha : a.createdAt.FourDigits)
    (hb : b.createdAt.FourDigits) (hle : a.createdAt.stored ≤ b.createdAt.stored)
    (hid : b.createdAt.stored ≤ a.createdAt.stored → a.id < b.id) : a.Earlier b := by
  rcases lt_trichotomy a.createdAt.numbers b.createdAt.numbers with hlt | heq | hgt
  · exact .inl hlt
  · have h := Instant.numbers_injective heq
    exact .inr ⟨h, hid (h ▸ String.le_refl _)⟩
  · exact absurd ((Instant.stored_lt_stored_iff hb ha).2 hgt) (String.not_lt.2 hle)

/-- **A run selects the first of the eligible artifacts**, the oldest first. -/
theorem exists_queue (hs : s.artifacts.Numbered fun row => row.artifact.id)
    (hsize : s.artifacts.rows.length ≤ maxLimit)
    (hyears : ∀ a ∈ eligible options s, a.createdAt.FourDigits) :
    ∃ queue : List Artifact, queue.Perm (eligible options s) ∧ queue.Pairwise Artifact.Earlier ∧
      selected options.resolve s = queue.take options.resolve.limit := by
  let le (a b : ArtifactRow) : Bool := a.artifact.createdAt.stored ≤ b.artifact.createdAt.stored
  let chosen := s.artifacts.rows.filter fun row => options.Eligible row
  have hperm : (chosen.mergeSort le).Perm chosen := List.mergeSort_perm ..
  refine ⟨(chosen.mergeSort le).map (·.artifact), hperm.map _, ?_, ?_⟩
  · have hordered : chosen.Pairwise fun a b => a.artifact.id < b.artifact.id :=
      hs.ordered.filter _
    have hsorted : (chosen.mergeSort le).Pairwise fun a b =>
        le a b ∧ (le b a → a.artifact.id < b.artifact.id) :=
      pairwise_mergeSort_of_ordered (fun a b c => by simpa [le] using String.le_trans)
        (fun a b => by simpa [le] using String.le_total _ _) hordered
    rw [List.pairwise_map]
    refine hsorted.imp_of_mem fun {a b} ha hb h => ?_
    have hyear {row : ArtifactRow} (hrow : row ∈ chosen.mergeSort le) :
        row.artifact.createdAt.FourDigits :=
      hyears _ (List.mem_map_of_mem (hperm.mem_iff.1 hrow))
    refine earlier_of_stored (hyear ha) (hyear hb) (by simpa [le] using h.1) fun hge => ?_
    exact h.2 (by simpa [le] using hge)
  · have hchosen : (s.artifacts.rows.filter fun row =>
        row.unknown.isNone && (wanted options.resolve).contains row.artifact.status) = chosen :=
      List.filter_congr fun row _ => eligible_iff options row
    have hlimited : limited options.resolve.limit (chosen.mergeSort le) =
        (chosen.mergeSort le).take options.resolve.limit := by
      unfold limited
      split
      · rfl
      · -- a limit that does not count is beyond the last row
        refine (List.take_of_length_le ?_).symm
        have hlength : chosen.length ≤ s.artifacts.rows.length := List.length_filter_le ..
        rw [List.length_mergeSort]
        omega
    rw [selected_eq, selectedRows, hchosen, hlimited, List.map_take]

end

/-! ## What a run does -/

/-- What a run does that makes these attempts: the calls, the store after them, and the report. -/
structure Performs (w : World) (options : Options) (xs : List Attempt) (report : Report)
    (w' : World) : Prop where
  /-- Nothing is called but the uploads, each once and in order. -/
  calls : w'.past = w.past ++ xs.flatMap (·.events)
  /-- An artifact that has a file is uploaded with it, to its path and in the time for it. -/
  uploads : ∀ x ∈ xs, x.upload? = (file? x.artifact).map fun pdf =>
    ⟨remotePath x.artifact options.workDir, pdf, options.resolve.timeout, x.result.map fun _ => ()⟩
  /-- The result follows from the artifact and the answer to its own upload. -/
  results : ∀ x ∈ xs, x.result = match x.upload? with
    | some u => u.answer.map fun _ => u.path
    | none => .error (if x.artifact.pdf.isNone then .missingPdf else .emptyPdf)
  /-- The artifact afterwards follows from the artifact and the result. -/
  outcomes : ∀ x ∈ xs,
    x.after = (applyOutcome x.artifact x.result options.resolve.maxAttempts).1
  /-- Only rows of artifacts change. -/
  store : w'.store = { w.store with artifacts :=
    { w.store.artifacts with rows := w.store.artifacts.rows.map (settle xs) } }
  /-- A row that was not tried stays as it is. -/
  others : ∀ row ∈ w.store.artifacts.rows, (∀ x ∈ xs, x.artifact.id ≠ row.artifact.id) →
    settle xs row = row
  /-- A row that was tried changes in four columns at most. -/
  columns : ∀ x ∈ xs, ⟨x.artifact, none⟩ ∈ w.store.artifacts.rows ∧
    settle xs ⟨x.artifact, none⟩ = ⟨{ x.artifact with
      status := x.after.status, attempts := x.after.attempts, remotePath := x.after.remotePath,
      lastError := x.after.lastError }, none⟩
  /-- The report counts the artifacts by how they ended. -/
  counts : report = ⟨xs.length, xs.countP (·.after.status = .synced),
    xs.countP (·.after.status = .syncFailed), xs.countP (·.after.status = .syncPending)⟩
  /-- Every artifact is counted once. -/
  total : report.selected = report.processed + report.failed + report.retried

theorem result_attempt (around : Surroundings) (options : Resolved) (past : List Event)
    (a : Artifact) : (attempt around options past a).result =
      match (attempt around options past a).upload? with
      | some u => u.answer.map fun _ => u.path
      | none => .error (if a.pdf.isNone then .missingPdf else .emptyPdf) := by
  cases hpdf : a.pdf with
  | none => simp [attempt, Attempt.upload?, file?, hpdf]
  | some pdf =>
    by_cases hempty : pdf.isEmpty
    · simp [attempt, Attempt.upload?, file?, hpdf, hempty, Option.filter_some]
    · generalize hanswer : around.upload past (remotePath a options.workDir) pdf options.timeout =
        answer
      cases answer <;>
        simp [attempt, Attempt.upload?, file?, hpdf, hempty, Option.filter_some, hanswer,
          Except.map]

/-- The result of an attempt follows from the artifact and the answer to its own upload. -/
theorem result_of_mem_attempts {around : Surroundings} {options : Resolved}
    {as : List Artifact} {past : List Event} {x : Attempt}
    (h : x ∈ attempts around options as past) : x.result = match x.upload? with
      | some u => u.answer.map fun _ => u.path
      | none => .error (if x.artifact.pdf.isNone then .missingPdf else .emptyPdf) := by
  induction as generalizing past with
  | nil => cases h
  | cons a as ih =>
    rcases List.mem_cons.1 h with rfl | h
    · exact result_attempt around options past a
    · exact ih h

/-- What became of an attempt is the status of the artifact afterwards. -/
theorem Attempt.outcome_cases (x : Attempt) :
    (x.outcome = .processed ∧ x.after.status = .synced) ∨
    (x.outcome = .failed ∧ x.after.status = .syncFailed) ∨
    (x.outcome = .retried ∧ x.after.status = .syncPending) := by
  unfold outcome after applyOutcome
  cases x.result with
  | ok path => exact .inl ⟨rfl, rfl⟩
  | error e =>
    by_cases hmax : x.options.maxAttempts ≤ x.artifact.attempts + 1
    · simp [hmax]
    · simp [hmax]

/-- The report tells how the attempts ended. -/
theorem foldl_count (xs : List Attempt) (report : Report) :
    xs.foldl (fun r x => r.count x.outcome) report =
      ⟨report.selected + xs.length,
        report.processed + xs.countP (·.after.status = .synced),
        report.failed + xs.countP (·.after.status = .syncFailed),
        report.retried + xs.countP (·.after.status = .syncPending)⟩ := by
  induction xs generalizing report with
  | nil => rfl
  | cons x xs ih =>
    rw [List.foldl_cons, ih]
    simp only [List.countP_cons, List.length_cons, Report.count]
    rcases x.outcome_cases with ⟨ho, hs⟩ | ⟨ho, hs⟩ | ⟨ho, hs⟩ <;>
      simp [ho, hs, Nat.add_assoc, Nat.add_comm 1]

/-- Every attempt ends in one of three ways. -/
theorem length_eq_countP_add (xs : List Attempt) :
    xs.length = xs.countP (·.after.status = .synced) + xs.countP (·.after.status = .syncFailed) +
      xs.countP (·.after.status = .syncPending) := by
  induction xs with
  | nil => rfl
  | cons x xs ih =>
    simp only [List.countP_cons, List.length_cons]
    rcases x.after_status with h | h | h <;> simp [h] <;> omega

/-- An artifact that was tried once ends as its attempt leaves it. -/
theorem settle_of_mem {xs : List Attempt} (hnodup : (xs.map (·.artifact.id)).Nodup) {x : Attempt}
    (hx : x ∈ xs) : settle xs ⟨x.artifact, none⟩ = ⟨x.after, none⟩ := by
  unfold settle
  cases hy : xs.find? fun y => y.artifact.id == x.artifact.id with
  | none => simpa using List.find?_eq_none.1 hy x hx
  | some y =>
    have hid : y.artifact.id = x.artifact.id := by simpa using List.find?_some hy
    rw [List.inj_on_of_nodup_map hnodup (List.mem_of_find?_eq_some hy) hx hid]

/-- Noting attempts changes no more than rows of artifacts. -/
theorem noted_eq (s : Store) (xs : List Attempt) :
    noted s xs = { s with artifacts :=
      { s.artifacts with rows := (noted s xs).artifacts.rows } } := by
  induction xs generalizing s with
  | nil => rfl
  | cons x xs ih => exact ih (s.changeArtifact x.artifact.id x.onto)

/-- **A run performs what it is meant to.**  It handles the first of the eligible artifacts, the
    oldest first, uploads each that has a file, and notes for each what its own answer makes of it;
    the report counts them.  A table has no more rows than it has numbers to give, and that many a
    limit can always say. -/
theorem run_performs (around : Surroundings) (w : World) (options : Options)
    (hs : w.store.artifacts.Numbered fun row => row.artifact.id)
    (hsize : w.store.artifacts.rows.length ≤ maxLimit)
    (hyears : ∀ a ∈ eligible options w.store, a.createdAt.FourDigits) :
    ∃ (queue : List Artifact) (report : Report) (w' : World),
      queue.Perm (eligible options w.store) ∧ queue.Pairwise Artifact.Earlier ∧
      (process options).on around w = (.ok report, w') ∧
      Performs w options
        (attempts around options.resolve (queue.take options.resolve.limit) w.past) report w' := by
  obtain ⟨queue, hperm, hordered, hselected⟩ := exists_queue hs hsize hyears
  refine ⟨queue, _, _, hperm, hordered, on_process around w options, ?_⟩
  rw [← hselected]
  generalize hxs : attempts around options.resolve (selected options.resolve w.store) w.past = xs
  have hmap : xs.map (·.artifact) = selected options.resolve w.store := by
    rw [← hxs, map_artifact_attempts]
  have hhas : ∀ x ∈ xs, w.store.Has x.artifact := fun x hx =>
    (mem_selected (hmap ▸ List.mem_map_of_mem hx)).1
  have hnodup : (xs.map (·.artifact.id)).Nodup := by
    have h : ((selected options.resolve w.store).map (·.id)).Nodup := nodup_selected hs
    rwa [← hmap, List.map_map] at h
  have hoptions : ∀ x ∈ xs, x.options = options.resolve := fun x hx =>
    options_of_mem_attempts (hxs ▸ hx)
  constructor
  case calls => rfl
  case uploads =>
    intro x hx
    rw [Attempt.upload?, hoptions x hx]
    rfl
  case results => exact fun x hx => result_of_mem_attempts (hxs ▸ hx)
  case outcomes =>
    intro x hx
    rw [Attempt.after, hoptions x hx]
  case store => rw [← rows_noted hs hhas hnodup]; exact noted_eq _ _
  case others => exact fun row _ hne => settle_of_forall_ne hne
  case columns =>
    intro x hx
    refine ⟨hhas x hx, (settle_of_mem hnodup hx).trans ?_⟩
    rw [← x.onto_artifact]
    rfl
  case counts =>
    rw [foldl_count]
    simp [Report.empty]
  case total =>
    rw [foldl_count]
    simp only [Report.empty, Nat.zero_add]
    exact length_eq_countP_add xs

/-- An artifact that waits, created at a fraction of the second after noon. -/
def waitingSince (id : Id) (nano : Nat) (h : nano < 1000000000) : Artifact where
  id := id
  packCode := "A"
  shipment := none
  carton := none
  status := .syncPending
  pdfName := some "pack.pdf"
  pdf := some ⟨#[1]⟩
  checksum := ""
  createdBy := none
  createdAt := ⟨⟨.epoch, ⟨12, 0, 0, nano, by decide, by decide, by decide, h⟩⟩⟩
  remotePath := ""
  attempts := 0
  lastError := ""

/-- A store with two artifacts, of which the second was created first. -/
def sampleQueue : Store :=
  { Store.empty with artifacts :=
    ⟨[⟨waitingSince 1 500000000 (by decide), none⟩, ⟨waitingSince 2 0 (by decide), none⟩], 2⟩ }

theorem numbered_sampleQueue : sampleQueue.artifacts.Numbered fun row => row.artifact.id := by
  constructor
  · simp [sampleQueue, waitingSince]
  · simp [sampleQueue, waitingSince]

theorem fourDigits_sampleQueue {options : Options} :
    ∀ a ∈ eligible options sampleQueue, a.createdAt.FourDigits := by
  intro a ha
  obtain ⟨row, hrow, rfl⟩ := List.mem_map.1 ha
  have hmem : row ∈ sampleQueue.artifacts.rows := (List.mem_filter.1 hrow).1
  simp only [sampleQueue, List.mem_cons, List.not_mem_nil, or_false] at hmem
  rcases hmem with rfl | rfl
  · exact ⟨by decide, by decide⟩
  · exact ⟨by decide, by decide⟩

theorem sample_run_performs :
    (sampleQueue.artifacts.Numbered fun row => row.artifact.id) ∧
    sampleQueue.artifacts.rows.length ≤ maxLimit ∧
    (∀ a ∈ eligible ⟨none, false, none, none, "work"⟩ sampleQueue, a.createdAt.FourDigits) ∧
    ∃ (queue : List Artifact) (report : Report) (w' : World),
      queue.Perm (eligible ⟨none, false, none, none, "work"⟩ sampleQueue) ∧
      queue.Pairwise Artifact.Earlier ∧
      (process ⟨none, false, none, none, "work"⟩).on (uploading (.ok ())) ⟨sampleQueue, []⟩ =
        (.ok report, w') ∧
      Performs ⟨sampleQueue, []⟩ ⟨none, false, none, none, "work"⟩
        (attempts (uploading (.ok ())) ⟨20, false, 5, 30000, "work"⟩ (queue.take 20) [])
        report w' :=
  ⟨numbered_sampleQueue, by decide, fourDigits_sampleQueue,
    run_performs (uploading (.ok ())) ⟨sampleQueue, []⟩ ⟨none, false, none, none, "work"⟩
      numbered_sampleQueue (by decide) fourDigits_sampleQueue⟩

end Delivery

end Waybill
