/-
  How often an artifact is tried.

  * `Operation.Sparing`: a run of the queue leaves alone what failed;
  * `Operation.Budgeted`: and it gives an artifact up after so many attempts at most;
  * `Within`: no artifact of a store was tried more often than a budget allows.

  A budget is a word of 32 bits, so a greater bound on it says no more than the greatest word.

  Statements: `Within.run` (an operation), `Within.runAll` (operations in order), and
  `bounded_retry`.
-/
import Waybill.Proofs.Delivery.LifeCycle

namespace Waybill

open Waybill.Drive Waybill.Generation Waybill.Store

/-- A run of the queue leaves alone what failed. -/
def Operation.Sparing : Operation → Prop
  | processing _ options => options.includeFailed = false
  | _ => True

/-- A run of the queue leaves alone what failed, and gives an artifact up after so many attempts at
    most. -/
def Operation.Budgeted (m : Nat) : Operation → Prop
  | processing _ options => options.includeFailed = false ∧ options.resolve.maxAttempts.toNat ≤ m
  | _ => True

/-- No budget is greater than the greatest word. -/
theorem Operation.Budgeted.min {m : Nat} {op : Operation} (h : op.Budgeted m) :
    op.Budgeted (min m (2 ^ 32 - 1)) := by
  cases op with
  | importing | changing | generating => trivial
  | processing around options =>
    exact ⟨h.1, le_min h.2 (Nat.le_pred_of_lt options.resolve.maxAttempts.toNat_lt)⟩

theorem Operation.Budgeted.sparing {m : Nat} {op : Operation} (h : op.Budgeted m) :
    op.Sparing := by
  cases op with
  | importing | changing | generating => trivial
  | processing around options => exact h.1

namespace Delivery

/-! ## One attempt -/

/-- An artifact that still waits after an attempt may be tried again. -/
theorem Attempt.attempts_lt_of_pending (x : Attempt) (h : x.after.status = .syncPending) :
    x.after.attempts < x.options.maxAttempts := by
  rw [x.after_attempts]
  unfold after applyOutcome at h
  cases hresult : x.result with
  | ok path => simp [hresult] at h
  | error e =>
    by_contra hmax
    simp [hresult, UInt32.not_lt.1 hmax] at h

section
variable {w : World} {op : Operation}

/-- A sparing operation selects only what waits. -/
theorem status_of_mem_selected (hop : op.Sparing) {a : Artifact} (h : a ∈ op.selected w) :
    a.status = .syncPending := by
  cases op with
  | importing | changing | generating => cases h
  | processing around options =>
    rcases mem_wanted.1 (mem_selected h).2 with hstatus | ⟨hasked, -⟩
    · exact hstatus
    · rw [show options.resolve.includeFailed = false from hop] at hasked
      cases hasked

theorem status_of_mem_sparing (hop : op.Sparing) {x : Attempt} (hx : x ∈ op.attempts w) :
    x.artifact.status = .syncPending :=
  status_of_mem_selected hop (map_artifact_operation w op ▸ List.mem_map_of_mem hx)

theorem maxAttempts_le {m : Nat} (hop : op.Budgeted m) {x : Attempt} (hx : x ∈ op.attempts w) :
    x.options.maxAttempts.toNat ≤ m := by
  cases op with
  | importing | changing | generating => cases hx
  | processing around options =>
    rw [options_of_mem_attempts hx]
    exact hop.2

end

/-! ## The budget -/

/-- No artifact of a store was tried more often than a budget allows, or as often while it waits. -/
def Within (m : Nat) (log : List Attempt) (s : Store) : Prop :=
  ∀ row ∈ s.artifacts.rows, (log.map (·.artifact.id)).count row.artifact.id ≤ m ∧
    (row.artifact.status = .syncPending → (log.map (·.artifact.id)).count row.artifact.id < m)

section
variable {m : Nat} {log : List Attempt} {w : World}

/-- No artifact was tried more often than the budget allows. -/
theorem Within.count_le {s : Store} (h : Within m log s) (hcounted : Counted log s) (id : Id) :
    (log.map (·.artifact.id)).count id ≤ m := by
  by_cases hid : id ∈ log.map (·.artifact.id)
  · obtain ⟨x, hx, rfl⟩ := List.mem_map.1 hid
    obtain ⟨a, ha, hid⟩ := hcounted.there x hx
    rw [← hid]
    exact (h _ ha).1
  · rw [List.count_eq_zero_of_not_mem hid]
    exact Nat.zero_le m

/-- A budget that a word can tell is kept by an operation. -/
theorem Within.run (hs : w.store.Sound) (hcounted : Counted log w.store)
    (h : Within m log w.store) (hm : 1 ≤ m) (hword : m < 2 ^ 32) {op : Operation}
    (hop : op.Budgeted m) : Within m (log ++ op.attempts w) (op.run w).store := by
  intro row hrow
  rcases mem_rows_run hs op hrow with ⟨hne, hold⟩ | ⟨x, hx, rfl⟩ | hadding
  · rw [Counted.count_of_kept op hne]
    exact h row hold
  · -- what is tried waits, so the budget has room for the attempt
    have hwaits := status_of_mem_sparing hop.sparing hx
    have hroom : (log.map (·.artifact.id)).count x.artifact.id < m :=
      (h _ ((batch_attempts hs op).has x hx)).2 hwaits
    have hrow : (⟨x.after, none⟩ : ArtifactRow) ∈ (op.run w).store.artifacts.rows := hrow
    have htold := (hcounted.run hs op).toNat_attempts hrow
    rw [x.after_id, Counted.count_of_attempted hs op hx] at htold ⊢
    refine ⟨hroom, fun hstatus => ?_⟩
    rw [← htold (by omega)]
    exact (UInt32.lt_iff_toNat_lt.1 (x.attempts_lt_of_pending hstatus)).trans_le
      (maxAttempts_le hop hx)
  · rw [hcounted.count_of_adding hs op hadding]
    exact ⟨Nat.zero_le m, fun _ => hm⟩

end

/-! ## Operations in order -/

theorem Within.runAll {m : Nat} {log : List Attempt} {w : World} (hs : w.store.Sound)
    (hcounted : Counted log w.store) (h : Within m log w.store) (hm : 1 ≤ m) (hword : m < 2 ^ 32)
    {ops : List Operation} (hops : ∀ op ∈ ops, op.Budgeted m) :
    Within m (log ++ w.attempts ops) (w.runAll ops).store := by
  induction ops generalizing w log with
  | nil =>
    rw [World.attempts, List.append_nil]
    exact h
  | cons op ops ih =>
    obtain ⟨hop, hops⟩ := List.forall_mem_cons.1 hops
    rw [World.attempts, ← List.append_assoc]
    exact ih (sound_run hs op) (hcounted.run hs op) (h.run hs hcounted hm hword hop) hops

/-- **Retries are bounded.**  When every run of the queue leaves alone what failed, and none allows
    more than `m` attempts, no artifact counts more than `m` attempts, or as many while it waits;
    at most `m` uploads are made for it, and once it has failed nothing about it changes and there
    is no attempt for it. -/
theorem bounded_retry (w₀ : World) (hs : w₀.store.Sound) (hempty : w₀.store.artifacts.rows = [])
    (m : Nat) (hm : 1 ≤ m) (ops : List Operation) (hops : ∀ op ∈ ops, op.Budgeted m) :
    let w := w₀.runAll ops
    let log := w₀.attempts ops
    (∀ row ∈ w.store.artifacts.rows, row.artifact.attempts.toNat ≤ m ∧
      (row.artifact.status = .syncPending → row.artifact.attempts.toNat < m)) ∧
    uploads w.past = uploads w₀.past ++ log.filterMap (·.upload?) ∧
    (∀ id, ((log.filter (·.artifact.id = id)).filterMap (·.upload?)).length ≤ m) ∧
    ∀ before after, ops = before ++ after →
      ∀ a, (w₀.runAll before).store.Has a → a.status = .syncFailed →
        w.store.Has a ∧ ∀ x ∈ (w₀.runAll before).attempts after, x.artifact.id ≠ a.id := by
  intro w log
  have hcounted : Counted log w.store := Counted.runAll hs (.nothing hempty) ops
  have h : Within (min m (2 ^ 32 - 1)) log w.store :=
    Within.runAll hs (.nothing hempty) (by simp [Within, hempty]) (by omega) (by omega)
      fun op hop => (hops op hop).min
  refine ⟨fun row hrow => ?_, uploads_runAll w₀ ops, fun id => ?_, ?_⟩
  · obtain ⟨hle, hwaits⟩ := h row hrow
    rw [hcounted.toNat_attempts hrow (by omega)]
    exact ⟨by omega, fun hstatus => (hwaits hstatus).trans_le (Nat.min_le_left ..)⟩
  · calc ((log.filter (·.artifact.id = id)).filterMap (·.upload?)).length
        ≤ (log.filter (·.artifact.id = id)).length := List.length_filterMap_le ..
      _ = (log.map (·.artifact.id)).count id := by
        rw [List.count, List.countP_map, List.countP_eq_length_filter]
        rfl
      _ ≤ m := (h.count_le hcounted id).trans (Nat.min_le_left ..)
  · rintro before after rfl a ha hfailed
    have hsel : ∀ op ∈ after, ∀ w, a ∉ op.selected w := by
      intro op hop w hmem
      have hsparing := (hops op (List.mem_append_right _ hop)).sparing
      rw [status_of_mem_selected hsparing hmem] at hfailed
      cases hfailed
    rw [show w = (w₀.runAll before).runAll after from runAll_append ..]
    exact kept_runAll (sound_runAll hs before) ha hsel

/-- A generation, and two runs of the queue that fail; they allow two attempts. -/
def sampleExhausting : List Operation :=
  sampleGeneration ++ List.replicate 2
    (.processing (uploading (.error (.unexpectedStatus 500))) ⟨none, false, some 2, none, "work"⟩)

theorem sample_bounded_retry : World.start.store.artifacts.rows = [] ∧
    (∀ op ∈ sampleExhausting ++ sampleRuns, op.Budgeted 5) ∧
    ∃ a, (World.start.runAll sampleExhausting).store.Has a ∧ a.status = .syncFailed ∧
      a.attempts = 2 ∧ (World.start.runAll (sampleExhausting ++ sampleRuns)).store.Has a := by
  have hops : ∀ op ∈ sampleExhausting ++ sampleRuns, op.Budgeted 5 := by
    simp [sampleExhausting, sampleGeneration, sampleRuns, blankImport, Operation.Budgeted,
      Options.resolve]
    decide
  have hrows : ((World.start.runAll sampleExhausting).store.artifacts.rows.map fun row =>
      (row.unknown, row.artifact.status, row.artifact.attempts)) = [(none, .syncFailed, 2)] := by
    decide +kernel
  obtain ⟨⟨a, unknown⟩, hlist, hfields⟩ := List.map_eq_singleton_iff.1 hrows
  obtain ⟨rfl, hstatus, hattempts⟩ : unknown = none ∧ a.status = .syncFailed ∧ a.attempts = 2 := by
    simpa using hfields
  have ha := hlist ▸ List.mem_singleton_self (⟨a, none⟩ : ArtifactRow)
  obtain ⟨-, -, -, hlater⟩ := bounded_retry World.start sound_empty rfl 5 (by decide) _ hops
  exact ⟨rfl, hops, a, ha, hstatus, hattempts, (hlater _ _ rfl a ha hstatus).1⟩

end Delivery

end Waybill
