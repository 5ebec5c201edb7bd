/-
  The life of an artifact, from its generation to its delivery.

  * `Operation.selected` are the artifacts that an operation selects;
  * `Moves` are the moves that a run of the queue may make, from status to status;
  * `Handled` is what an operation makes of an artifact that is there before it;
  * `Artifact.Left`: no generation is at work on the artifact;
  * `Artifact.Ended`: the artifact was delivered, or its generation failed;
  * `Counted`: the artifacts of a store keep the count of the attempts so far.

  The count of an artifact is a word of 32 bits: it tells the attempts only while they are fewer
  than such a word can tell.

  Statements: `exists_handled` (one operation), `kept_runAll` and `has_runAll` (operations in
  order), `Counted.runAll`, and `artifact_life_cycle`.
-/
import Waybill.Proofs.Delivery.Log

namespace Waybill

open Waybill.Drive Waybill.Generation Waybill.Store

/-- The artifacts that an operation selects. -/
def Operation.selected (w : World) : Operation → List Artifact
  | processing _ options => Delivery.selected options.resolve w.store
  | _ => []

namespace Delivery

/-- The moves that a run may make: it retries what failed only when it is asked to. -/
inductive Moves (includeFailed : Bool) : ArtifactStatus → ArtifactStatus → Prop
  | pending {status : ArtifactStatus}
    (h : status = .syncPending ∨ status = .synced ∨ status = .syncFailed) :
    Moves includeFailed .syncPending status
  | failed {status : ArtifactStatus}
    (h : status = .syncPending ∨ status = .synced ∨ status = .syncFailed)
    (hasked : includeFailed = true) : Moves includeFailed .syncFailed status

/-- What an operation makes of an artifact: nothing when it does not select it, and else a run of
    the queue has selected it once, and moved it on. -/
inductive Handled (w : World) : Operation → Artifact → Artifact → Prop
  | kept {op : Operation} {a : Artifact} (hsel : a ∉ op.selected w) : Handled w op a a
  | moved {around : Surroundings} {options : Options} {a b : Artifact}
    (hsel : (Operation.selected w (.processing around options)).count a = 1)
    (hmoves : Moves options.includeFailed a.status b.status)
    (hattempts : b.attempts = a.attempts + 1) : Handled w (.processing around options) a b

end Delivery

/-- No generation is at work on the artifact. -/
def Artifact.Left (a : Artifact) : Prop :=
  a.status ≠ .generated

/-- The artifact was delivered, or its generation failed. -/
def Artifact.Ended (a : Artifact) : Prop :=
  a.status = .synced ∨ a.status = .generationFailed

namespace Delivery

/-! ## One operation -/

section
variable {w : World}

/-- An operation makes an attempt for each artifact that it selects, and for no other. -/
theorem map_artifact_operation (w : World) (op : Operation) :
    (op.attempts w).map (·.artifact) = op.selected w := by
  cases op with
  | importing | changing | generating => rfl
  | processing around options => exact map_artifact_attempts _ _

/-- An artifact that has ended is not selected. -/
theorem not_ended_of_mem_selected {op : Operation} {a : Artifact} (h : a ∈ op.selected w) :
    ¬ a.Ended := by
  cases op with
  | importing | changing | generating => cases h
  | processing around options =>
    rintro (hended | hended) <;>
      rcases mem_wanted.1 (mem_selected h).2 with hstatus | ⟨-, hstatus⟩ <;>
      rw [hended] at hstatus <;> cases hstatus

variable (hs : w.store.Sound) (op : Operation)
include hs

/-- The attempts for an artifact: one when it is selected, none when it is not. -/
theorem count_attempts {a : Artifact} (ha : w.store.Has a) :
    ((op.attempts w).map (·.artifact.id)).count a.id = (op.selected w).count a := by
  have hbatch := batch_attempts hs op
  have hselected := map_artifact_operation w op
  by_cases hsel : a ∈ op.selected w
  · have hid : a.id ∈ (op.attempts w).map (·.artifact.id) := by
      rw [← hselected] at hsel
      obtain ⟨x, hx, rfl⟩ := List.mem_map.1 hsel
      exact List.mem_map_of_mem hx
    have hnodup : (op.selected w).Nodup := by
      rw [← hselected]
      refine .of_map Artifact.id ?_
      rw [List.map_map]
      exact hbatch.nodup
    rw [List.count_eq_one_of_mem hbatch.nodup hid, List.count_eq_one_of_mem hnodup hsel]
  · have hid : a.id ∉ (op.attempts w).map (·.artifact.id) := fun hid => by
      obtain ⟨x, hx, hxa⟩ := List.mem_map.1 hid
      have heq := hs.artifacts.eq_of_id_eq (hbatch.has x hx) ha hxa
      obtain rfl : x.artifact = a := congrArg ArtifactRow.artifact heq
      exact hsel (hselected ▸ List.mem_map_of_mem hx)
    rw [List.count_eq_zero_of_not_mem hid, List.count_eq_zero_of_not_mem hsel]

/-- Every artifact is there after an operation, with what the operation makes of it. -/
theorem exists_handled {a : Artifact} (ha : w.store.Has a) :
    ∃ b, (op.run w).store.Has b ∧ b.id = a.id ∧ Handled w op a b := by
  rcases has_run hs op ha with ⟨hne, hkept⟩ | ⟨x, hx, rfl, hafter⟩
  · refine ⟨a, hkept, rfl, .kept fun hsel => ?_⟩
    rw [← map_artifact_operation] at hsel
    obtain ⟨x, hx, rfl⟩ := List.mem_map.1 hsel
    exact hne x hx rfl
  · have hsel : x.artifact ∈ op.selected w := map_artifact_operation w op ▸ List.mem_map_of_mem hx
    have hcount : (op.selected w).count x.artifact = 1 := by
      rw [← count_attempts hs op ha]
      exact List.count_eq_one_of_mem (batch_attempts hs op).nodup (List.mem_map_of_mem hx)
    refine ⟨x.after, hafter, x.after_id, ?_⟩
    cases op with
    | importing | changing | generating => cases hx
    | processing around options =>
      refine .moved hcount ?_ x.after_attempts
      rcases mem_wanted.1 (mem_selected hsel).2 with hstatus | ⟨hasked, hstatus⟩
      · rw [hstatus]
        exact .pending x.after_status
      · rw [hstatus]
        exact .failed x.after_status hasked

/-- Every artifact that is there after an operation can be read, and no generation is at work on
    it. -/
theorem left_run (hleft : ∀ row ∈ w.store.artifacts.rows, row.unknown = none ∧ row.artifact.Left) :
    ∀ row ∈ (op.run w).store.artifacts.rows, row.unknown = none ∧ row.artifact.Left := by
  intro row hrow
  rcases mem_rows_run hs op hrow with ⟨-, hold⟩ | ⟨x, -, rfl⟩ | hadding
  · exact hleft row hold
  · refine ⟨rfl, fun hstatus => ?_⟩
    have h := x.after_status
    rw [hstatus] at h
    simp at h
  · cases hadding with
    | left _ hnew => cases hnew <;> exact ⟨rfl, by simp [Artifact.Left, finalized, failed]⟩

end

/-! ## Operations in order -/

theorem left_runAll {w : World} (hs : w.store.Sound)
    (hleft : ∀ row ∈ w.store.artifacts.rows, row.unknown = none ∧ row.artifact.Left)
    (ops : List Operation) :
    ∀ row ∈ (w.runAll ops).store.artifacts.rows, row.unknown = none ∧ row.artifact.Left := by
  induction ops generalizing w with
  | nil => exact hleft
  | cons op ops ih => exact ih (sound_run hs op) (left_run hs op hleft)

/-- An artifact that no operation selects stays as it is, and there is no attempt for it. -/
theorem kept_runAll {w : World} (hs : w.store.Sound) {a : Artifact} (ha : w.store.Has a)
    {ops : List Operation} (hsel : ∀ op ∈ ops, ∀ w, a ∉ op.selected w) :
    (w.runAll ops).store.Has a ∧ ∀ x ∈ w.attempts ops, x.artifact.id ≠ a.id := by
  induction ops generalizing w with
  | nil => exact ⟨ha, by simp [World.attempts]⟩
  | cons op ops ih =>
    obtain ⟨hop, hops⟩ := List.forall_mem_cons.1 hsel
    rcases has_run hs op ha with ⟨hne, hkept⟩ | ⟨x, hx, rfl, -⟩
    · obtain ⟨hkept, hrest⟩ := ih (sound_run hs op) hkept hops
      exact ⟨hkept, List.forall_mem_append.2 ⟨hne, hrest⟩⟩
    · exact (hop w (map_artifact_operation w op ▸ List.mem_map_of_mem hx)).elim

/-- Every artifact is there after operations, with its attempts counted. -/
theorem count_runAll {w : World} (hs : w.store.Sound) {a : Artifact} (ha : w.store.Has a)
    (ops : List Operation) :
    ∃ b, (w.runAll ops).store.Has b ∧ b.id = a.id ∧
      b.attempts = a.attempts + .ofNat (((w.attempts ops).map (·.artifact.id)).count a.id) := by
  induction ops generalizing w a with
  | nil => exact ⟨a, ha, rfl, (UInt32.add_zero _).symm⟩
  | cons op ops ih =>
    obtain ⟨b, hb, hid, hhandled⟩ := exists_handled hs op ha
    obtain ⟨c, hc, hid', hcount⟩ := ih (sound_run hs op) hb
    rw [hid] at hid' hcount
    refine ⟨c, hc, hid', ?_⟩
    rw [World.attempts, List.map_append, List.count_append, count_attempts hs op ha, hcount]
    cases hhandled with
    | kept hsel => rw [List.count_eq_zero_of_not_mem hsel, Nat.zero_add]
    | moved hsel _ hattempts => rw [hsel, hattempts, UInt32.ofNat_add, UInt32.add_assoc]; rfl

/-- A word counts on as long as it can tell the number. -/
theorem toNat_add_ofNat {word : UInt32} {n : Nat} (h : word.toNat + n < 2 ^ 32) :
    (word + .ofNat n).toNat = word.toNat + n := by
  rw [UInt32.toNat_add, UInt32.toNat_ofNat', Nat.add_mod_mod, Nat.mod_eq_of_lt h]

/-- Every artifact is there after operations, with its attempts counted; one that has ended is as it
    was, and no attempt is made for it. -/
theorem has_runAll {w : World} (hs : w.store.Sound) {a : Artifact} (ha : w.store.Has a)
    (ops : List Operation) :
    let tries := ((w.attempts ops).map (·.artifact.id)).count a.id
    ∃ b, (w.runAll ops).store.Has b ∧ b.id = a.id ∧ b.attempts = a.attempts + .ofNat tries ∧
      (a.attempts.toNat + tries < 2 ^ 32 → b.attempts.toNat = a.attempts.toNat + tries) ∧
      (a.Ended → b = a ∧ ∀ x ∈ w.attempts ops, x.artifact.id ≠ a.id) := by
  intro tries
  obtain ⟨b, hb, hid, hcount⟩ := count_runAll hs ha ops
  refine ⟨b, hb, hid, hcount, fun hfew => hcount ▸ toNat_add_ofNat hfew, fun hended => ?_⟩
  obtain ⟨hkept, hne⟩ := kept_runAll hs ha fun op (_ : op ∈ ops) w hsel =>
    not_ended_of_mem_selected hsel hended
  have heq := (sound_runAll hs ops).artifacts.eq_of_id_eq hb hkept hid
  exact ⟨congrArg ArtifactRow.artifact heq, hne⟩

/-! ## The count of attempts -/

/-- An artifact that is added has a new number, and no attempts. -/
theorem new_of_adding {w : World} {op : Operation} {row : ArtifactRow} (h : Adding w op [row]) :
    row.artifact.id = w.store.artifacts.next ∧ row.artifact.attempts = 0 := by
  cases h with
  | left _ hleft => cases hleft <;> exact ⟨rfl, rfl⟩

/-- The artifacts of a store keep the count of the attempts so far. -/
structure Counted (log : List Attempt) (s : Store) : Prop where
  count : ∀ row ∈ s.artifacts.rows,
    row.artifact.attempts = .ofNat ((log.map (·.artifact.id)).count row.artifact.id)
  /-- Every attempt was for an artifact that is there. -/
  there : ∀ x ∈ log, ∃ a, s.Has a ∧ a.id = x.artifact.id

namespace Counted

variable {log : List Attempt} {w : World}

theorem nothing {s : Store} (h : s.artifacts.rows = []) : Counted [] s where
  count := by simp [h]
  there := by simp

/-- The count tells the attempts as long as a word can tell their number. -/
theorem toNat_attempts {s : Store} (h : Counted log s) {row : ArtifactRow}
    (hrow : row ∈ s.artifacts.rows)
    (hfew : (log.map (·.artifact.id)).count row.artifact.id < 2 ^ 32) :
    row.artifact.attempts.toNat = (log.map (·.artifact.id)).count row.artifact.id := by
  rw [h.count row hrow, UInt32.toNat_ofNat', Nat.mod_eq_of_lt hfew]

variable (hs : w.store.Sound) (h : Counted log w.store) (op : Operation)
include hs h

theorem there_run {x : Attempt} (hx : x ∈ log ++ op.attempts w) :
    ∃ a, (op.run w).store.Has a ∧ a.id = x.artifact.id := by
  have hbefore : ∃ a, w.store.Has a ∧ a.id = x.artifact.id := by
    rcases List.mem_append.1 hx with hx | hx
    · exact h.there x hx
    · exact ⟨x.artifact, (batch_attempts hs op).has x hx, rfl⟩
  obtain ⟨a, ha, hid⟩ := hbefore
  obtain ⟨b, hb, hid', -⟩ := exists_handled hs op ha
  exact ⟨b, hb, hid'.trans hid⟩

/-- There was no attempt for an artifact that is added. -/
theorem count_of_adding {row : ArtifactRow} (hadding : Adding w op [row]) :
    ((log ++ op.attempts w).map (·.artifact.id)).count row.artifact.id = 0 := by
  have hid := (new_of_adding hadding).1
  refine List.count_eq_zero_of_not_mem fun hmem => ?_
  obtain ⟨x, hx, hxid⟩ := List.mem_map.1 hmem
  have hlt : x.artifact.id < w.store.artifacts.next := by
    rcases List.mem_append.1 hx with hx | hx
    · obtain ⟨a, ha, hid⟩ := h.there x hx
      exact hid ▸ hs.artifacts.lt_next ha
    · exact hs.artifacts.lt_next ((batch_attempts hs op).has x hx)
  exact Int.ne_of_lt hlt (hxid.trans hid)

omit hs h in
/-- There is no further attempt for an artifact that is not attempted. -/
theorem count_of_kept {id : Id} (hne : ∀ x ∈ op.attempts w, x.artifact.id ≠ id) :
    ((log ++ op.attempts w).map (·.artifact.id)).count id =
      (log.map (·.artifact.id)).count id := by
  have hnone : id ∉ (op.attempts w).map (·.artifact.id) := by
    rintro hmem
    obtain ⟨x, hx, hid⟩ := List.mem_map.1 hmem
    exact hne x hx hid
  rw [List.map_append, List.count_append, List.count_eq_zero_of_not_mem hnone, Nat.add_zero]

omit h in
/-- There is one further attempt for an artifact that is attempted. -/
theorem count_of_attempted {x : Attempt} (hx : x ∈ op.attempts w) :
    ((log ++ op.attempts w).map (·.artifact.id)).count x.artifact.id =
      (log.map (·.artifact.id)).count x.artifact.id + 1 := by
  have hone := List.count_eq_one_of_mem (batch_attempts hs op).nodup (List.mem_map_of_mem hx)
  rw [List.map_append, List.count_append, hone]

/-- The count is kept by an operation. -/
theorem run : Counted (log ++ op.attempts w) (op.run w).store where
  count row hrow := by
    rcases mem_rows_run hs op hrow with ⟨hne, hold⟩ | ⟨x, hx, rfl⟩ | hadding
    · rw [count_of_kept op hne]
      exact h.count row hold
    · rw [x.after_id, count_of_attempted hs op hx, x.after_attempts, UInt32.ofNat_add]
      exact congrArg (· + 1) (h.count _ ((batch_attempts hs op).has x hx))
    · rw [h.count_of_adding hs op hadding]
      exact (new_of_adding hadding).2
  there _ hx := h.there_run hs op hx

omit op in
theorem runAll (ops : List Operation) : Counted (log ++ w.attempts ops) (w.runAll ops).store := by
  induction ops generalizing w log with
  | nil =>
    rw [World.attempts, List.append_nil]
    exact h
  | cons op ops ih =>
    rw [World.attempts, ← List.append_assoc]
    exact ih (sound_run hs op) (h.run hs op)

end Counted

/-- **The life of an artifact.**  Whatever was done before, no artifact is still being generated.
    An operation leaves an artifact as it is, unless it is a run of the queue that selects it: that
    makes one move, and counts one attempt.  What is uploaded is uploaded in these attempts.  An
    artifact keeps the count of all attempts for it; once it has ended nothing about it changes, and
    there is no attempt for it. -/
theorem artifact_life_cycle (w₀ : World) (hs : w₀.store.Sound)
    (hempty : w₀.store.artifacts.rows = []) (before : List Operation) :
    let w := w₀.runAll before
    (∀ row ∈ w.store.artifacts.rows, row.unknown = none ∧ row.artifact.Left) ∧
    (∀ (op : Operation) a, w.store.Has a →
      ∃ b, (op.run w).store.Has b ∧ b.id = a.id ∧ Handled w op a b) ∧
    (∀ op : Operation, (op.attempts w).map (·.artifact) = op.selected w) ∧
    (∀ after, uploads (w.runAll after).past =
      uploads w.past ++ (w.attempts after).filterMap (·.upload?)) ∧
    ∀ a after, w.store.Has a →
      let tries := ((w.attempts after).map (·.artifact.id)).count a.id
      ∃ b, (w.runAll after).store.Has b ∧ b.id = a.id ∧ b.attempts = a.attempts + .ofNat tries ∧
        (a.attempts.toNat + tries < 2 ^ 32 → b.attempts.toNat = a.attempts.toNat + tries) ∧
        (a.Ended → b = a ∧ ∀ x ∈ w.attempts after, x.artifact.id ≠ a.id) := by
  intro w
  have hw : w.store.Sound := sound_runAll hs before
  refine ⟨left_runAll hs (by simp [hempty]) before, fun op a ha => exists_handled hw op ha,
    map_artifact_operation w, uploads_runAll w, fun a after ha => has_runAll hw ha after⟩

theorem sample_life_cycle : World.start.store.artifacts.rows = [] ∧
    ∃ a b, (World.start.runAll sampleGeneration).store.Has a ∧ a.status = .syncPending ∧
      ((World.start.runAll sampleGeneration).runAll sampleRuns).store.Has b ∧ b.id = a.id ∧
      b.attempts = 2 := by
  have hrows : ((World.start.runAll sampleGeneration).store.artifacts.rows.map fun row =>
      (row.artifact.id, row.artifact.status, row.artifact.attempts)) = [(1, .syncPending, 0)] := by
    decide +kernel
  have hlog : ((World.start.runAll sampleGeneration).attempts sampleRuns).map (·.artifact.id) =
      [1, 1] := by
    decide +kernel
  obtain ⟨hread, -, -, -, hlater⟩ :=
    artifact_life_cycle World.start sound_empty rfl sampleGeneration
  generalize World.start.runAll sampleGeneration = w at hrows hlog hread hlater ⊢
  obtain ⟨⟨a, unknown⟩, hlist, hfields⟩ := List.map_eq_singleton_iff.1 hrows
  obtain ⟨hid, hstatus, hattempts⟩ : a.id = 1 ∧ a.status = .syncPending ∧ a.attempts = 0 := by
    simpa using hfields
  have hmem := hlist ▸ List.mem_singleton_self (⟨a, unknown⟩ : ArtifactRow)
  obtain rfl : unknown = none := (hread _ hmem).1
  obtain ⟨b, hb, hbid, hcount, -⟩ := hlater a sampleRuns hmem
  rw [hlog, hattempts, hid] at hcount
  exact ⟨rfl, a, b, hmem, hstatus, hb, hbid, hcount⟩

end Delivery

end Waybill
