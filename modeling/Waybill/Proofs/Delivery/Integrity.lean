/-
  What is delivered of an artifact is the file that its generation made, and that only once.

  * `World.returned` are the artifacts that generations gave back;
  * `Artifact.origin` is an artifact as its generation left it;
  * `Noted` is what a store notes of an artifact, told from the attempts so far;
  * `Intact` ties the attempts so far, the artifacts given back and the store together.

  Statements: `Intact.run` (an operation), `Intact.runAll` (operations in order), and
  `delivery_integrity`.
-/
import Waybill.Proofs.Delivery.LifeCycle
import Waybill.Proofs.Delivery.Path

namespace Waybill

open Waybill.Drive Waybill.Generation Waybill.Store Waybill.Table

/-! ## Texts that are never empty -/

theorem Drive.ConfigError.message_ne_empty (e : ConfigError) : e.message ≠ "" := by
  unfold ConfigError.message
  split <;> simp

theorem Drive.Stage.name_ne_empty (stage : Stage) : stage.name ≠ "" := by
  cases stage <;> decide

theorem Drive.DriveError.message_ne_empty (e : DriveError) : e.message ≠ "" := by
  unfold DriveError.message
  split
  · exact ConfigError.message_ne_empty _
  all_goals simp [Stage.name_ne_empty]

theorem Drive.DeliveryError.message_ne_empty (e : DeliveryError) : e.message ≠ "" := by
  unfold DeliveryError.message
  split
  · decide
  · decide
  · exact DriveError.message_ne_empty _
  · simp

theorem Delivery.remotePath_ne_empty (a : Artifact) (dir : String) : remotePath a dir ≠ "" := by
  obtain ⟨first, second, hfolders, -⟩ := exists_folders a
  rw [remotePath_of_folders hfolders]
  simp

/-! ## Artifacts given back -/

/-- The artifact that an operation gives back, if it is a generation that succeeds. -/
def Operation.returned (w : World) : Operation → List Artifact
  | generating around setting request =>
    match ((generate setting request).on around w).1 with
    | .ok a => [a]
    | .error _ => []
  | _ => []

/-- The artifacts that operations in order give back. -/
def Generation.World.returned (w : World) : List Operation → List Artifact
  | [] => []
  | op :: ops => op.returned w ++ (op.run w).returned ops

/-- An artifact as its generation left it, with all that deliveries note of it put back. -/
def Artifact.origin (a : Artifact) : Artifact :=
  { a with status := .syncPending, attempts := 0, remotePath := "", lastError := "" }

/-- A run of the queue delivers below the folder; other operations deliver nothing. -/
def Operation.Below (dir : String) : Operation → Prop
  | processing _ options => options.workDir = dir
  | _ => True

namespace Delivery

/-- What is noted of an artifact, given the attempts so far. -/
inductive Noted (log : List Attempt) (a : Artifact) : Prop
  | abandoned (hstatus : a.status = .generationFailed) (hpath : a.remotePath = "")
  | waiting (hstatus : a.status = .syncPending) (hpath : a.remotePath = "")
  | exhausted (hstatus : a.status = .syncFailed) (hpath : a.remotePath = "")
    (herror : a.lastError ≠ "")
  | delivered (hstatus : a.status = .synced) (herror : a.lastError = "")
    (hlog : ∃ x ∈ log, x.artifact.id = a.id ∧ x.result = .ok a.remotePath ∧
      (file? x.artifact).isSome)

/-- The attempts that succeeded. -/
def successes (log : List Attempt) : List Attempt :=
  log.filter (·.result.isOk)

/-- The attempts so far, the artifacts given back and the store fit together. -/
structure Intact (dir : String) (log : List Attempt) (given : List Artifact) (s : Store) :
    Prop where
  /-- What was given back has its file, and the digest of it. -/
  file : ∀ r ∈ given, ∃ pdf, r.pdf = some pdf ∧ r.checksum = Digest.sha256Hex pdf
  /-- What was given back is kept, but for what deliveries note of it. -/
  kept : ∀ r ∈ given, ∃ a, s.Has a ∧ a.origin = r
  /-- Each attempt was for an artifact that was given back, to be put below the folder. -/
  attempted : ∀ x ∈ log, x.artifact.origin ∈ given ∧ x.options.workDir = dir
  /-- An attempt that succeeded went to the path of its artifact. -/
  path : ∀ x ∈ log, ∀ path, x.result = .ok path → path = remotePath x.artifact dir
  /-- An artifact is known to be noted as it is, and is one given back unless it was abandoned. -/
  noted : ∀ row ∈ s.artifacts.rows, row.unknown = none ∧ Noted log row.artifact ∧
    (row.artifact.status ≠ .generationFailed → row.artifact.origin ∈ given)
  /-- What was not delivered had no attempt that succeeded. -/
  undelivered : ∀ row ∈ s.artifacts.rows, row.artifact.status ≠ .synced →
    ∀ x ∈ successes log, x.artifact.id ≠ row.artifact.id
  /-- No two attempts for one artifact succeeded. -/
  once : ((successes log).map (·.artifact.id)).Nodup

section
variable {w : World} {op : Operation}

theorem Attempt.after_origin (x : Attempt) : x.after.origin = x.artifact.origin := by
  rcases x.after_cases with ⟨_, -, h⟩ | ⟨_, _, -, -, h⟩ <;> rw [h] <;> rfl

theorem remotePath_origin (a : Artifact) (dir : String) :
    remotePath a.origin dir = remotePath a dir := by
  unfold remotePath folders pdfName
  rfl

theorem mem_successes {log : List Attempt} {x : Attempt} :
    x ∈ successes log ↔ x ∈ log ∧ ∃ path, x.result = .ok path := by
  unfold successes
  rw [List.mem_filter]
  cases x.result <;> simp [Except.isOk, Except.toBool]

theorem Noted.mono {log : List Attempt} (more : List Attempt) {a : Artifact} (h : Noted log a) :
    Noted (log ++ more) a := by
  cases h with
  | abandoned hstatus hpath => exact .abandoned hstatus hpath
  | waiting hstatus hpath => exact .waiting hstatus hpath
  | exhausted hstatus hpath herror => exact .exhausted hstatus hpath herror
  | delivered hstatus herror hlog =>
    obtain ⟨x, hx, h⟩ := hlog
    exact .delivered hstatus herror ⟨x, List.mem_append_left _ hx, h⟩

/-- What a generation gives back is in the store, as it was left, with its file and the digest. -/
theorem has_returned (hs : w.store.Sound) {r : Artifact} (hr : r ∈ op.returned w) :
    (op.run w).store.Has r ∧ r.origin = r ∧
      ∃ pdf, r.pdf = some pdf ∧ r.checksum = Digest.sha256Hex pdf := by
  cases op with
  | importing | changing | processing => cases hr
  | generating around setting request =>
    rcases generate_rows around setting request w hs with
      ⟨e, hrun⟩ | ⟨result, a, w', hrun, hrows, new, hleft⟩
    · rw [Operation.returned, hrun] at hr
      cases hr
    · rw [Operation.returned, hrun] at hr
      cases hleft with
      | abandoned => cases hr
      | finished pdfName pdf =>
        obtain rfl := List.mem_singleton.1 hr
        refine ⟨?_, rfl, pdf, rfl, rfl⟩
        rw [Store.Has, Operation.run, hrun, hrows]
        exact List.mem_append_right _ (List.mem_singleton_self _)

/-- An artifact that is added has a new number, and is given back or abandoned. -/
theorem returned_or_abandoned {row : ArtifactRow} (h : Adding w op [row]) :
    row.unknown = none ∧ row.artifact.id = w.store.artifacts.next ∧
      row.artifact.remotePath = "" ∧
      (row.artifact ∈ op.returned w ∧ row.artifact.status = .syncPending ∨
        row.artifact.status = .generationFailed) := by
  cases h with
  | left hrun hleft =>
    cases hleft with
    | abandoned e => exact ⟨rfl, rfl, rfl, Or.inr rfl⟩
    | finished pdfName pdf =>
      refine ⟨rfl, rfl, rfl, Or.inl ⟨?_, rfl⟩⟩
      rw [Operation.returned, hrun]
      exact List.mem_singleton_self _

/-- Only an artifact that waits or failed is attempted. -/
theorem status_of_mem_attempts (hs : w.store.Sound) {x : Attempt} (hx : x ∈ op.attempts w) :
    x.artifact.status = .syncPending ∨ x.artifact.status = .syncFailed :=
  (mem_wanted.1 ((batch_attempts hs op).status x hx)).imp_right And.right

theorem workDir_of_mem_attempts {dir : String} (hop : op.Below dir) {x : Attempt}
    (hx : x ∈ op.attempts w) : x.options.workDir = dir := by
  cases op with
  | importing | changing | generating => cases hx
  | processing around options =>
    rw [options_of_mem_attempts hx]
    exact hop

end

/-! ## One operation -/

namespace Intact

variable {dir : String} {log : List Attempt} {given : List Artifact} {w : World}

theorem nothing (dir : String) {s : Store} (h : s.artifacts.rows = []) : Intact dir [] [] s where
  file := by simp
  kept := by simp
  attempted := by simp
  path := by simp
  noted := by simp [h]
  undelivered := by simp [h]
  once := by simp [successes]

variable (hs : w.store.Sound) (h : Intact dir log given w.store)
include hs h

/-- No two artifacts that were given back have one number. -/
theorem eq_of_id_eq {r r' : Artifact} (hr : r ∈ given) (hr' : r' ∈ given) (hid : r.id = r'.id) :
    r = r' := by
  obtain ⟨a, ha, rfl⟩ := h.kept r hr
  obtain ⟨b, hb, rfl⟩ := h.kept r' hr'
  have heq := hs.artifacts.eq_of_id_eq ha hb hid
  rw [show a = b from congrArg ArtifactRow.artifact heq]

/-- An attempt so far was not for the artifact to come. -/
theorem id_lt_next {x : Attempt} (hx : x ∈ log) : x.artifact.id < w.store.artifacts.next := by
  obtain ⟨a, ha, horigin⟩ := h.kept _ (h.attempted x hx).1
  have hid : x.artifact.id = a.id := (congrArg Artifact.id horigin).symm
  exact hid ▸ hs.artifacts.lt_next ha

variable (op : Operation) (hop : op.Below dir)

theorem kept_run {r : Artifact} (hr : r ∈ given ++ op.returned w) :
    ∃ a, (op.run w).store.Has a ∧ a.origin = r := by
  rcases List.mem_append.1 hr with hr | hr
  · obtain ⟨a, ha, rfl⟩ := h.kept r hr
    rcases has_run hs op ha with ⟨-, hkept⟩ | ⟨x, -, rfl, hafter⟩
    · exact ⟨a, hkept, rfl⟩
    · exact ⟨x.after, hafter, x.after_origin⟩
  · obtain ⟨hhas, horigin, -⟩ := has_returned hs hr
    exact ⟨r, hhas, horigin⟩

/-- An artifact that is attempted has no path, and was given back. -/
theorem noted_attempted {x : Attempt} (hx : x ∈ op.attempts w) :
    x.artifact.remotePath = "" ∧ x.artifact.origin ∈ given := by
  obtain ⟨-, hnoted, hgiven⟩ := h.noted _ ((batch_attempts hs op).has x hx)
  have hstatus := status_of_mem_attempts hs hx
  refine ⟨?_, hgiven (by rcases hstatus with e | e <;> simp [e])⟩
  cases hnoted with
  | abandoned _ hpath | waiting _ hpath | exhausted _ hpath => exact hpath
  | delivered hsynced => rcases hstatus with e | e <;> rw [hsynced] at e <;> cases e

theorem noted_after {x : Attempt} (hx : x ∈ op.attempts w) :
    Noted (log ++ op.attempts w) x.after := by
  have hpath := (h.noted_attempted hs op hx).1
  have hlog := List.mem_append_right log hx
  rcases x.after_cases with ⟨path, hok, hafter⟩ | ⟨e, status, -, rfl | rfl, hafter⟩ <;> rw [hafter]
  · have hfile := ((batch_attempts hs op).path x hx path hok).2
    exact .delivered rfl rfl ⟨x, hlog, rfl, hok, hfile⟩
  · exact .exhausted rfl hpath e.message_ne_empty
  · exact .waiting rfl hpath

theorem noted_run {row : ArtifactRow} (hrow : row ∈ (op.run w).store.artifacts.rows) :
    row.unknown = none ∧ Noted (log ++ op.attempts w) row.artifact ∧
      (row.artifact.status ≠ .generationFailed →
        row.artifact.origin ∈ given ++ op.returned w) := by
  rcases mem_rows_run hs op hrow with ⟨-, hold⟩ | ⟨x, hx, rfl⟩ | hadding
  · obtain ⟨hunknown, hnoted, hgiven⟩ := h.noted row hold
    exact ⟨hunknown, hnoted.mono _, fun hne => List.mem_append_left _ (hgiven hne)⟩
  · refine ⟨rfl, h.noted_after hs op hx, fun _ => List.mem_append_left _ ?_⟩
    exact x.after_origin ▸ (h.noted_attempted hs op hx).2
  · obtain ⟨hunknown, -, hpath, ⟨hreturned, hstatus⟩ | hstatus⟩ := returned_or_abandoned hadding
    · refine ⟨hunknown, .waiting hstatus hpath, fun _ => List.mem_append_right _ ?_⟩
      rwa [(has_returned hs hreturned).2.1]
    · exact ⟨hunknown, .abandoned hstatus hpath, fun hne => (hne hstatus).elim⟩

/-- An attempt that succeeded before was not for an artifact that is attempted now. -/
theorem ne_of_mem_successes {x y : Attempt} (hx : x ∈ op.attempts w) (hy : y ∈ successes log) :
    y.artifact.id ≠ x.artifact.id := by
  refine h.undelivered _ ((batch_attempts hs op).has x hx) ?_ y hy
  rcases status_of_mem_attempts hs hx with e | e <;> simp [e]

theorem undelivered_run {row : ArtifactRow} (hrow : row ∈ (op.run w).store.artifacts.rows)
    (hstatus : row.artifact.status ≠ .synced) {y : Attempt}
    (hy : y ∈ successes (log ++ op.attempts w)) : y.artifact.id ≠ row.artifact.id := by
  have hbatch := batch_attempts hs op
  rw [successes, List.filter_append, List.mem_append] at hy
  rcases mem_rows_run hs op hrow with ⟨hne, hold⟩ | ⟨x, hx, rfl⟩ | hadding
  · rcases hy with hy | hy
    · exact h.undelivered row hold hstatus y hy
    · exact hne y (mem_successes.1 hy).1
  · rw [x.after_id]
    rcases hy with hy | hy
    · exact h.ne_of_mem_successes hs op hx hy
    · -- the attempt would be the one that did not deliver the artifact
      obtain ⟨hmem, path, hok⟩ := mem_successes.1 hy
      intro hid
      obtain rfl := List.inj_on_of_nodup_map hbatch.nodup hmem hx hid
      rcases y.after_cases with ⟨_, -, hafter⟩ | ⟨_, _, herror, -⟩
      · exact hstatus (by rw [hafter])
      · rw [hok] at herror
        cases herror
  · rw [(returned_or_abandoned hadding).2.1]
    rcases hy with hy | hy
    · exact Int.ne_of_lt (h.id_lt_next hs (mem_successes.1 hy).1)
    · exact Int.ne_of_lt (hs.artifacts.lt_next (hbatch.has y (mem_successes.1 hy).1))

theorem once_run : ((successes (log ++ op.attempts w)).map (·.artifact.id)).Nodup := by
  rw [successes, List.filter_append, List.map_append]
  refine List.Nodup.append h.once ?_ fun id hold hnew => ?_
  · exact (batch_attempts hs op).nodup.sublist (List.filter_sublist.map _)
  · obtain ⟨y, hy, rfl⟩ := List.mem_map.1 hold
    obtain ⟨x, hx, hid⟩ := List.mem_map.1 hnew
    exact h.ne_of_mem_successes hs op (mem_successes.1 hx).1 hy hid.symm

include hop

/-- Everything still fits together after an operation. -/
theorem run : Intact dir (log ++ op.attempts w) (given ++ op.returned w) (op.run w).store where
  file r hr := (List.mem_append.1 hr).elim (h.file r) fun hr => (has_returned hs hr).2.2
  kept _ hr := h.kept_run hs op hr
  attempted x hx := by
    rcases List.mem_append.1 hx with hx | hx
    · exact (h.attempted x hx).imp_left (List.mem_append_left _)
    · exact ⟨List.mem_append_left _ (h.noted_attempted hs op hx).2, workDir_of_mem_attempts hop hx⟩
  path x hx path hok := by
    rcases List.mem_append.1 hx with hx | hx
    · exact h.path x hx path hok
    · rw [← workDir_of_mem_attempts hop hx]
      exact ((batch_attempts hs op).path x hx path hok).1
  noted _ hrow := h.noted_run hs op hrow
  undelivered _ hrow hstatus _ hy := h.undelivered_run hs op hrow hstatus hy
  once := h.once_run hs op

end Intact

/-! ## Operations in order -/

theorem Intact.runAll {dir : String} {log : List Attempt} {given : List Artifact} {w : World}
    (hs : w.store.Sound) (h : Intact dir log given w.store) {ops : List Operation}
    (hops : ∀ op ∈ ops, op.Below dir) :
    Intact dir (log ++ w.attempts ops) (given ++ w.returned ops) (w.runAll ops).store := by
  induction ops generalizing w log given with
  | nil =>
    rw [World.attempts, World.returned, List.append_nil, List.append_nil]
    exact h
  | cons op ops ih =>
    obtain ⟨hop, hops⟩ := List.forall_mem_cons.1 hops
    rw [World.attempts, World.returned, ← List.append_assoc, ← List.append_assoc]
    exact ih (sound_run hs op) (h.run hs op hop) hops

/-- What is noted of an artifact agrees with the attempts for it: it has a path when it was
    delivered and only then, that of the attempt which delivered it.  It counts the attempts that
    were made for it, of which there is one at least when it was delivered; the count is a word of
    32 bits, and is not zero before it starts again. -/
structure Faithful (log : List Attempt) (a : Artifact) : Prop where
  path : a.remotePath ≠ "" ↔ a.status = .synced
  attempts : a.attempts = .ofNat ((log.map (·.artifact.id)).count a.id)
  synced : a.status = .synced → a.lastError = "" ∧ 1 ≤ (log.map (·.artifact.id)).count a.id ∧
    ((log.map (·.artifact.id)).count a.id < 2 ^ 32 → 1 ≤ a.attempts) ∧
    ∃ x ∈ successes log, x.artifact.id = a.id ∧
      ∃ u, x.upload? = some u ∧ u.path = a.remotePath ∧ u.answer = .ok ()
  syncFailed : a.status = .syncFailed → a.lastError ≠ ""

theorem Intact.faithful {dir : String} {log : List Attempt} {given : List Artifact} {s : Store}
    (h : Intact dir log given s) (hcounted : Counted log s) {row : ArtifactRow}
    (hrow : row ∈ s.artifacts.rows) : Faithful log row.artifact := by
  have hcount := hcounted.count row hrow
  cases (h.noted row hrow).2.1 with
  | abandoned hstatus hpath =>
    exact ⟨by simp [hstatus, hpath], hcount, by simp [hstatus], by simp [hstatus]⟩
  | waiting hstatus hpath =>
    exact ⟨by simp [hstatus, hpath], hcount, by simp [hstatus], by simp [hstatus]⟩
  | exhausted hstatus hpath herror =>
    exact ⟨by simp [hstatus, hpath], hcount, by simp [hstatus], fun _ => herror⟩
  | delivered hstatus herror hlog =>
    obtain ⟨x, hx, hid, hok, hfile⟩ := hlog
    have hpath := h.path x hx _ hok
    obtain ⟨pdf, hpdf⟩ := Option.isSome_iff_exists.1 hfile
    have hone : 1 ≤ (log.map (·.artifact.id)).count row.artifact.id :=
      List.one_le_count_iff.2 (List.mem_map.2 ⟨x, hx, hid⟩)
    refine ⟨?_, hcount, fun _ => ⟨herror, hone, fun hfew => ?_, x, mem_successes.2 ⟨hx, _, hok⟩,
      hid, ?_⟩, by simp [hstatus]⟩
    · simp [hstatus, hpath, remotePath_ne_empty]
    · rw [UInt32.le_iff_toNat_le, hcounted.toNat_attempts hrow hfew]
      exact hone
    · refine ⟨_, by rw [Attempt.upload?, hpdf, Option.map_some], ?_, ?_⟩
      · rw [(h.attempted x hx).2, hpath]
      · rw [hok]
        rfl

/-- **What is delivered is what was generated, and that once.**  When every run of the queue
    delivers below one folder, each upload is made in an attempt for an artifact that a generation
    gave back, with the file that the generation made, whose digest is stored, and to one path.
    At most one attempt for an artifact succeeds; what the store notes of an artifact agrees with
    it. -/
theorem delivery_integrity (w₀ : World) (hs : w₀.store.Sound)
    (hempty : w₀.store.artifacts.rows = []) (dir : String) (ops : List Operation)
    (hops : ∀ op ∈ ops, op.Below dir) :
    let w := w₀.runAll ops
    let log := w₀.attempts ops
    uploads w.past = uploads w₀.past ++ log.filterMap (·.upload?) ∧
    (∀ x ∈ log, ∃ r ∈ w₀.returned ops, x.artifact.id = r.id) ∧
    (∀ r ∈ w₀.returned ops, ∃ a pdf, w.store.Has a ∧ a.id = r.id ∧
      r.pdf = some pdf ∧ a.pdf = some pdf ∧ a.checksum = Digest.sha256Hex pdf ∧
      ∀ x ∈ log, x.artifact.id = r.id → ∀ u, x.upload? = some u →
        u.pdf = pdf ∧ u.path = remotePath r dir) ∧
    ((successes log).map (·.artifact.id)).Nodup ∧
    ∀ row ∈ w.store.artifacts.rows, Faithful log row.artifact := by
  intro w log
  have h : Intact dir log (w₀.returned ops) w.store := Intact.runAll hs (.nothing dir hempty) hops
  have hcounted : Counted log w.store := Counted.runAll hs (.nothing hempty) ops
  have hw : w.store.Sound := sound_runAll hs ops
  refine ⟨uploads_runAll w₀ ops, fun x hx => ⟨_, (h.attempted x hx).1, rfl⟩, fun r hr => ?_,
    h.once, fun row hrow => h.faithful hcounted hrow⟩
  obtain ⟨pdf, hpdf, hchecksum⟩ := h.file r hr
  obtain ⟨a, ha, rfl⟩ := h.kept r hr
  refine ⟨a, pdf, ha, rfl, hpdf, hpdf, hchecksum, fun x hx hid u hu => ?_⟩
  obtain ⟨hgiven, hdir⟩ := h.attempted x hx
  have horigin : x.artifact.origin = a.origin := h.eq_of_id_eq hw hgiven hr hid
  obtain ⟨file, hfile, rfl⟩ := Option.map_eq_some_iff.1 hu
  have hxpdf : x.artifact.pdf = some pdf := (congrArg Artifact.pdf horigin).trans hpdf
  have hkept : x.artifact.pdf = some file := (Option.filter_eq_some_iff.1 hfile).1
  refine ⟨Option.some.inj (hkept.symm.trans hxpdf), ?_⟩
  rw [hdir, ← remotePath_origin, horigin]

theorem sample_integrity : (∀ op ∈ sampleGeneration ++ sampleRuns, op.Below "work") ∧
    ∃ row ∈ (World.start.runAll (sampleGeneration ++ sampleRuns)).store.artifacts.rows,
      row.artifact.status = .synced ∧
      Faithful (World.start.attempts (sampleGeneration ++ sampleRuns)) row.artifact := by
  have hops : ∀ op ∈ sampleGeneration ++ sampleRuns, op.Below "work" := by
    simp [sampleGeneration, sampleRuns, blankImport, Operation.Below]
  have hrows : ((World.start.runAll (sampleGeneration ++ sampleRuns)).store.artifacts.rows.map
      (·.artifact.status)) = [.synced] := by
    decide +kernel
  obtain ⟨row, hlist, hstatus⟩ := List.map_eq_singleton_iff.1 hrows
  have hrow := hlist ▸ List.mem_singleton_self row
  exact ⟨hops, row, hrow, hstatus,
    (delivery_integrity World.start sound_empty rfl "work" _ hops).2.2.2.2 row hrow⟩

end Delivery

end Waybill
