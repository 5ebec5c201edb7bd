/-
  The queue drains.

  * `Store.waiting` are the artifacts that wait, `Store.remaining` the attempts that a budget leaves
    them, at least one for each;
  * `share` is what one artifact adds to that;
  * `Artifact.Queued`: the artifact waits, was delivered or was given up;
  * `Artifact.Roomy`: if it waits, its count does not start again at the next attempt.

  Statements: `share_after` (an attempt uses up an artifact's share), `roomy_run` and
  `remaining_run` (a run of the queue), and `queue_drains`.
-/
import Waybill.Proofs.Delivery.Budget

namespace Waybill

open Waybill.Drive Waybill.Generation Waybill.Store

namespace Store

/-- The artifacts that wait. -/
def waiting (s : Store) : List Artifact :=
  (s.artifacts.rows.map (·.artifact)).filter (·.status = .syncPending)

/-- The attempts that a budget leaves the artifacts that wait, at least one for each. -/
def remaining (m : UInt32) (s : Store) : Nat :=
  (s.waiting.map fun a => max 1 (m.toNat - a.attempts.toNat)).sum

end Store

/-- The artifact waits, was delivered or was given up. -/
def Artifact.Queued (a : Artifact) : Prop :=
  a.status = .syncPending ∨ a.status = .synced ∨ a.status = .syncFailed

/-- The count of the artifact has room for one more attempt if it waits. -/
def Artifact.Roomy (a : Artifact) : Prop :=
  a.status = .syncPending → a.attempts.toNat + 1 < 2 ^ 32

namespace Delivery

/-! ## The share of an artifact -/

/-- What an artifact adds to the attempts that remain. -/
def share (m : UInt32) (a : Artifact) : Nat :=
  if a.status = .syncPending then max 1 (m.toNat - a.attempts.toNat) else 0

theorem remaining_eq (m : UInt32) (s : Store) :
    s.remaining m = (s.artifacts.rows.map fun row => share m row.artifact).sum := by
  unfold remaining waiting
  induction s.artifacts.rows with
  | nil => rfl
  | cons row rows ih =>
    rw [List.map_cons, List.map_cons, List.sum_cons, ← ih, share]
    by_cases h : row.artifact.status = .syncPending
    · rw [List.filter_cons_of_pos (by simpa using h), List.map_cons, List.sum_cons, if_pos h]
    · rw [List.filter_cons_of_neg (by simpa using h), if_neg h, Nat.zero_add]

theorem waiting_eq_nil {m : UInt32} {s : Store} (h : s.remaining m = 0) : s.waiting = [] := by
  refine List.eq_nil_iff_forall_not_mem.2 fun a ha => ?_
  have hle := List.single_le_sum (fun _ _ => Nat.zero_le _) _
    (List.mem_map_of_mem (f := fun a => max 1 (m.toNat - a.attempts.toNat)) ha)
  rw [show List.sum _ = 0 from h] at hle
  omega

/-- An artifact that still waits after an attempt counts less than a budget, so it has room. -/
theorem Attempt.roomy_after (x : Attempt) : x.after.Roomy := fun hwaits => by
  have hroom := UInt32.lt_iff_toNat_lt.1 (x.attempts_lt_of_pending hwaits)
  have hword := x.options.maxAttempts.toNat_lt
  omega

/-- An attempt uses up some of an artifact's share, whatever came of it. -/
theorem share_after {x : Attempt} (h : x.artifact.status = .syncPending)
    (hroomy : x.artifact.Roomy) :
    share x.options.maxAttempts x.after + 1 ≤ share x.options.maxAttempts x.artifact := by
  rw [share, share, if_pos h]
  split
  · next hwaits =>
    have hroom := UInt32.lt_iff_toNat_lt.1 (x.attempts_lt_of_pending hwaits)
    have hcount : x.after.attempts.toNat = x.artifact.attempts.toNat + 1 := by
      rw [x.after_attempts]
      exact toNat_add_ofNat (n := 1) (hroomy h)
    omega
  · omega

/-! ## What a run tries -/

/-- Whether an attempt is for the artifact of a row. -/
def tried (xs : List Attempt) (row : ArtifactRow) : Bool :=
  xs.any fun x => x.artifact.id == row.artifact.id

section
variable {s : Store} {xs : List Attempt}

/-- Each attempt is for a row of its own. -/
theorem Batch.length_le_countP (h : Batch s xs) :
    xs.length ≤ s.artifacts.rows.countP (tried xs) := by
  let rows := xs.map fun x => (⟨x.artifact, none⟩ : ArtifactRow)
  have hnodup : rows.Nodup := by
    refine .of_map (fun row => row.artifact.id) ?_
    rw [List.map_map]
    exact h.nodup
  have hsub : rows ⊆ s.artifacts.rows.filter (tried xs) := by
    intro row hrow
    obtain ⟨x, hx, rfl⟩ := List.mem_map.1 hrow
    exact List.mem_filter.2 ⟨h.has x hx, List.any_eq_true.2 ⟨x, hx, beq_self_eq_true _⟩⟩
  have hle := (List.subperm_of_subset hnodup hsub).length_le
  rwa [List.length_map, ← List.countP_eq_length_filter] at hle

/-- An artifact that is tried loses some of its share, the others keep theirs. -/
theorem Batch.share_settle (hs : s.artifacts.Numbered fun row => row.artifact.id) (h : Batch s xs)
    {m : UInt32} (hm : ∀ x ∈ xs, x.options.maxAttempts = m)
    (hstatus : ∀ x ∈ xs, x.artifact.status = .syncPending)
    (hroomy : ∀ row ∈ s.artifacts.rows, row.artifact.Roomy) {row : ArtifactRow}
    (hrow : row ∈ s.artifacts.rows) :
    share m (settle xs row).artifact + (if tried xs row then 1 else 0) ≤ share m row.artifact := by
  unfold settle tried
  cases hx : xs.find? fun x => x.artifact.id == row.artifact.id with
  | none =>
    rw [List.any_eq_false.2 (List.find?_eq_none.1 hx)]
    exact le_rfl
  | some x =>
    have hmem := List.mem_of_find?_eq_some hx
    have hid : x.artifact.id = row.artifact.id := by simpa using List.find?_some hx
    obtain rfl := hs.eq_of_id_eq (h.has x hmem) hrow hid
    rw [← hm x hmem, if_pos (List.any_eq_true.2 ⟨x, hmem, by simp⟩)]
    exact share_after (hstatus x hmem) (hroomy _ hrow)

theorem one_le_limit (options : Options) : 1 ≤ options.resolve.limit := by
  unfold Options.resolve
  cases options.limit with
  | none => exact Nat.le_add_left ..
  | some limit => exact Nat.le_max_left ..

/-- As many artifacts are selected as wait, up to the limit. -/
theorem le_length_selected {options : Resolved} (hoptions : options.includeFailed = false)
    (hread : ∀ row ∈ s.artifacts.rows, row.unknown = none) :
    min options.limit s.waiting.length ≤ (selected options s).length := by
  have hwanted : ∀ row ∈ s.artifacts.rows,
      (row.unknown.isNone && (wanted options).contains row.artifact.status) =
        decide (row.artifact.status = .syncPending) := by
    intro row hrow
    simp [hread row hrow, wanted, hoptions]
  have hlength : s.waiting.length = (s.artifacts.rows.filter fun row =>
      decide (row.artifact.status = .syncPending)).length := by
    rw [waiting, List.filter_map, List.length_map]
    rfl
  rw [selected_eq, List.length_map, selectedRows, List.filter_congr hwanted, hlength, limited]
  split
  · rw [List.length_take, List.length_mergeSort]
  · rw [List.length_mergeSort]
    exact Nat.min_le_right ..

end

/-- A sum over a list falls by the number of summands that fall. -/
theorem sum_add_countP_le {α : Type} {f g : α → Nat} {p : α → Bool} {l : List α}
    (h : ∀ a ∈ l, f a + (if p a then 1 else 0) ≤ g a) :
    (l.map f).sum + l.countP p ≤ (l.map g).sum := by
  induction l with
  | nil => exact le_rfl
  | cons a l ih =>
    obtain ⟨ha, hl⟩ := List.forall_mem_cons.1 h
    have hle := ih hl
    rw [List.map_cons, List.map_cons, List.sum_cons, List.sum_cons, List.countP_cons]
    omega

/-! ## Runs -/

/-- An artifact that waits has just been generated, or counts less than a budget. -/
theorem roomy_run {w : World} (hs : w.store.Sound) (op : Operation)
    (hroomy : ∀ row ∈ w.store.artifacts.rows, row.artifact.Roomy) :
    ∀ row ∈ (op.run w).store.artifacts.rows, row.artifact.Roomy := by
  intro row hrow
  rcases mem_rows_run hs op hrow with ⟨-, hold⟩ | ⟨x, -, rfl⟩ | hadding
  · exact hroomy row hold
  · exact x.roomy_after
  · intro _
    rw [(new_of_adding hadding).2]
    decide

theorem roomy_runAll {w : World} (hs : w.store.Sound)
    (hroomy : ∀ row ∈ w.store.artifacts.rows, row.artifact.Roomy) (ops : List Operation) :
    ∀ row ∈ (w.runAll ops).store.artifacts.rows, row.artifact.Roomy := by
  induction ops generalizing w with
  | nil => exact hroomy
  | cons op ops ih => exact ih (sound_run hs op) (roomy_run hs op hroomy)

section
variable {w : World} {options : Options} (hs : w.store.Sound)
  (hleft : ∀ row ∈ w.store.artifacts.rows, row.unknown = none ∧ row.artifact.Left)
  (hroomy : ∀ row ∈ w.store.artifacts.rows, row.artifact.Roomy)
  (hoptions : options.includeFailed = false)
include hs hleft hroomy hoptions

/-- **A run of the queue uses up attempts that remain**, one for each artifact that waits, up to the
    limit. -/
theorem remaining_run (around : Surroundings) :
    ((Operation.processing around options).run w).store.remaining options.resolve.maxAttempts +
        min options.resolve.limit w.store.waiting.length ≤
      w.store.remaining options.resolve.maxAttempts := by
  have hsparing : (Operation.processing around options).Sparing := hoptions
  have hbatch := batch_attempts hs (.processing around options)
  obtain ⟨added, hadding, hrows⟩ := rows_run hs (.processing around options)
  cases hadding
  rw [List.append_nil] at hrows
  have hlength : (Operation.attempts w (.processing around options)).length =
      (selected options.resolve w.store).length := by
    rw [← List.length_map, map_artifact_operation]
    rfl
  have hm : ∀ x ∈ Operation.attempts w (.processing around options),
      x.options.maxAttempts = options.resolve.maxAttempts := fun x hx => by
    rw [options_of_mem_attempts hx]
  have hstatus : ∀ x ∈ Operation.attempts w (.processing around options),
      x.artifact.status = .syncPending := fun x => status_of_mem_sparing hsparing
  generalize Operation.attempts w (.processing around options) = xs at *
  have hlimit : min options.resolve.limit w.store.waiting.length ≤ xs.length := by
    rw [hlength]
    exact le_length_selected hoptions fun row hrow => (hleft row hrow).1
  have hcount := hlimit.trans hbatch.length_le_countP
  have hsum := sum_add_countP_le fun row hrow => hbatch.share_settle hs.artifacts hm hstatus hroomy hrow
  rw [remaining_eq, remaining_eq, hrows, List.map_map]
  exact (Nat.add_le_add_left hcount _).trans hsum

/-- After as many runs as attempts remain, nothing waits. -/
theorem waiting_runs (arounds : List Surroundings)
    (h : w.store.remaining options.resolve.maxAttempts ≤ arounds.length) :
    (w.runAll (arounds.map (.processing · options))).store.waiting = [] := by
  induction arounds generalizing w with
  | nil => exact waiting_eq_nil (Nat.le_zero.1 h)
  | cons around arounds ih =>
    have hrun := remaining_run hs hleft hroomy hoptions around
    have hlimit := one_le_limit options
    have hnone : w.store.waiting.length = 0 → w.store.remaining options.resolve.maxAttempts = 0 :=
      fun h => by rw [Store.remaining, List.length_eq_zero_iff.1 h]; rfl
    rw [List.length_cons] at h
    have hless : ((Operation.processing around options).run w).store.remaining
        options.resolve.maxAttempts ≤ arounds.length := by omega
    exact ih (sound_run hs _) (left_run hs _ hleft) (roomy_run hs _ hroomy) hless

end

theorem Moves.status_after {includeFailed : Bool} {status status' : ArtifactStatus}
    (h : Moves includeFailed status status') :
    status' = .syncPending ∨ status' = .synced ∨ status' = .syncFailed := by
  cases h <;> assumption

/-- An artifact of the queue stays in it. -/
theorem queued_runAll {w : World} (hs : w.store.Sound) {a : Artifact} (ha : w.store.Has a)
    (hqueued : a.Queued) (ops : List Operation) :
    ∃ b, (w.runAll ops).store.Has b ∧ b.id = a.id ∧ b.Queued := by
  induction ops generalizing w a with
  | nil => exact ⟨a, ha, rfl, hqueued⟩
  | cons op ops ih =>
    obtain ⟨b, hb, hid, hhandled⟩ := exists_handled hs op ha
    have hqueued' : b.Queued := by
      cases hhandled with
      | kept => exact hqueued
      | moved _ hmoves => exact hmoves.status_after
    obtain ⟨c, hc, hid', hcqueued⟩ := ih (sound_run hs op) hb hqueued'
    exact ⟨c, hc, hid'.trans hid, hcqueued⟩

/-- **The queue drains.**  A run of the queue that leaves alone what failed uses up an attempt for
    each artifact that waits, up to the limit, whatever the uploads come to.  So after as many runs
    as attempts remain nothing waits, and each artifact that did was delivered or given up. -/
theorem queue_drains (w₀ : World) (hs : w₀.store.Sound) (hempty : w₀.store.artifacts.rows = [])
    (before : List Operation) (options : Options) (hoptions : options.includeFailed = false) :
    let w := w₀.runAll before
    let limit := options.resolve.limit
    let m := options.resolve.maxAttempts
    (∀ around, ((Operation.processing around options).run w).store.remaining m +
      min limit w.store.waiting.length ≤ w.store.remaining m) ∧
    ∀ arounds : List Surroundings, w.store.remaining m ≤ arounds.length →
      let w' := w.runAll (arounds.map (.processing · options))
      w'.store.waiting = [] ∧ ∀ a ∈ w.store.waiting,
        ∃ b, w'.store.Has b ∧ b.id = a.id ∧ (b.status = .synced ∨ b.status = .syncFailed) := by
  intro w limit m
  have hw : w.store.Sound := sound_runAll hs before
  have hleft := left_runAll hs (by simp [hempty]) before
  have hroomy := roomy_runAll hs (by simp [hempty]) before
  refine ⟨remaining_run hw hleft hroomy hoptions, fun arounds h => ?_⟩
  intro w'
  have hnone : w'.store.waiting = [] := waiting_runs hw hleft hroomy hoptions arounds h
  refine ⟨hnone, fun a ha => ?_⟩
  obtain ⟨hmap, hstatus⟩ := List.mem_filter.1 ha
  obtain ⟨⟨a, unknown⟩, hrow, rfl⟩ := List.mem_map.1 hmap
  obtain rfl : unknown = none := (hleft ⟨a, unknown⟩ hrow).1
  obtain ⟨b, hb, hid, hqueued⟩ := queued_runAll hw hrow (Or.inl (of_decide_eq_true hstatus)) _
  refine ⟨b, hb, hid, hqueued.resolve_left fun hwaits => ?_⟩
  have hmem : b ∈ w'.store.waiting :=
    List.mem_filter.2 ⟨List.mem_map_of_mem hb, decide_eq_true hwaits⟩
  exact List.not_mem_nil (hnone ▸ hmem)

/-- Runs of the queue, of which none delivers. -/
def sampleOutage : List Surroundings :=
  List.replicate 5 (uploading (.error (.unexpectedStatus 500)))

theorem sample_drains : World.start.store.artifacts.rows = [] ∧
    (World.start.runAll sampleGeneration).store.remaining 5 = 5 ∧
    ∃ a ∈ (World.start.runAll sampleGeneration).store.waiting,
      ∃ b, ((World.start.runAll sampleGeneration).runAll (sampleOutage.map
          (.processing · ⟨some 1, false, none, none, "work"⟩))).store.Has b ∧
        b.id = a.id ∧ (b.status = .synced ∨ b.status = .syncFailed) := by
  have hremaining : (World.start.runAll sampleGeneration).store.remaining 5 = 5 := by
    decide +kernel
  have hwaiting : ((World.start.runAll sampleGeneration).store.waiting.map (·.id)) = [1] := by
    decide +kernel
  obtain ⟨a, hlist, -⟩ := List.map_eq_singleton_iff.1 hwaiting
  have ha := hlist ▸ List.mem_singleton_self a
  obtain ⟨-, hdrained⟩ := queue_drains World.start sound_empty rfl sampleGeneration
    ⟨some 1, false, none, none, "work"⟩ rfl
  exact ⟨rfl, hremaining, a, ha, (hdrained sampleOutage hremaining.le).2 a ha⟩

end Delivery

end Waybill
