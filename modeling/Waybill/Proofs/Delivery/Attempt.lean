/-
  What a run of the queue does.

  A run makes one attempt for each artifact that it selects, in order, and notes what came of it.

  * `selected` are the artifacts that a run selects;
  * `Attempt` is an attempt with its result, `Attempt.after` the artifact after it and
    `Attempt.upload?` the upload that it made, if any;
  * `attempts` are the attempts of a run, as the surroundings answer them;
  * `Store.Has`: an artifact is in the store, just as it is.

  Statements: `on_process` (a run makes its attempts and notes them), `mem_selected` and
  `nodup_selected` (what is selected), `rows_noted` (every row after a run).
-/
import Waybill.Delivery.Queue
import Waybill.Proofs.Generation.World
import Waybill.Proofs.Store.Schema

namespace Waybill

open Waybill.Drive Waybill.Generation Waybill.Store

/-- The artifact is in the store, just as it is. -/
def Store.Has (s : Store) (a : Artifact) : Prop :=
  ⟨a, none⟩ ∈ s.artifacts.rows

namespace Delivery

/-! ## Attempts -/

/-- The file of an artifact, unless it has none or an empty one. -/
def file? (a : Artifact) : Option ByteArray :=
  a.pdf.filter fun pdf => !pdf.isEmpty

/-- An attempt to deliver an artifact, as it was selected: the path it went to, or why not. -/
structure Attempt where
  artifact : Artifact
  options : Resolved
  result : Except DeliveryError String

namespace Attempt

/-- The artifact after the attempt. -/
def after (x : Attempt) : Artifact :=
  (applyOutcome x.artifact x.result x.options.maxAttempts).1

/-- What became of the attempt. -/
def outcome (x : Attempt) : Outcome :=
  (applyOutcome x.artifact x.result x.options.maxAttempts).2

/-- The upload that was made, if there was a file. -/
def upload? (x : Attempt) : Option Upload :=
  (file? x.artifact).map fun pdf =>
    ⟨remotePath x.artifact x.options.workDir, pdf, x.options.timeout, x.result.map fun _ => ()⟩

/-- The calls that were made. -/
def events (x : Attempt) : List Event :=
  x.upload?.toList.map fun u => .upload u.path u.pdf u.timeout u.answer

/-- The kept artifact with what is noted of the attempt. -/
def onto (x : Attempt) (kept : Artifact) : Artifact :=
  { kept with
    status := x.after.status, attempts := x.after.attempts, remotePath := x.after.remotePath,
    lastError := x.after.lastError }

theorem uploads_events (x : Attempt) : uploads x.events = x.upload?.toList := by
  unfold events
  cases x.upload? <;> rfl

/-- An artifact after an attempt: delivered, or with the error noted and another try to come or
    not. -/
theorem after_cases (x : Attempt) :
    (∃ path, x.result = .ok path ∧ x.after = { x.artifact with
      status := .synced, attempts := x.artifact.attempts + 1, remotePath := path,
      lastError := "" }) ∨
    ∃ e status, x.result = .error e ∧ (status = .syncFailed ∨ status = .syncPending) ∧
      x.after = { x.artifact with
        status := status, attempts := x.artifact.attempts + 1, lastError := e.message } := by
  unfold after applyOutcome
  cases x.result with
  | ok path => exact Or.inl ⟨path, rfl, rfl⟩
  | error e =>
    refine Or.inr ⟨e, ?_⟩
    by_cases hmax : x.options.maxAttempts ≤ x.artifact.attempts + 1
    · exact ⟨.syncFailed, rfl, Or.inl rfl, by simp only [hmax, ↓reduceIte]⟩
    · exact ⟨.syncPending, rfl, Or.inr rfl, by simp only [hmax, ↓reduceIte]⟩

theorem after_id (x : Attempt) : x.after.id = x.artifact.id := by
  rcases x.after_cases with ⟨_, -, h⟩ | ⟨_, _, -, -, h⟩ <;> rw [h]

theorem after_attempts (x : Attempt) : x.after.attempts = x.artifact.attempts + 1 := by
  rcases x.after_cases with ⟨_, -, h⟩ | ⟨_, _, -, -, h⟩ <;> rw [h]

theorem after_status (x : Attempt) :
    x.after.status = .syncPending ∨ x.after.status = .synced ∨ x.after.status = .syncFailed := by
  rcases x.after_cases with ⟨_, -, h⟩ | ⟨_, _, -, rfl | rfl, h⟩ <;> rw [h] <;> simp

/-- An attempt changes no more than what is noted of it. -/
theorem onto_artifact (x : Attempt) : x.onto x.artifact = x.after := by
  unfold onto
  rcases x.after_cases with ⟨_, -, h⟩ | ⟨_, _, -, -, h⟩ <;> rw [h]

end Attempt

/-! ## Attempts in a world -/

/-- The attempt for an artifact, as the surroundings answer it. -/
def attempt (around : Surroundings) (options : Resolved) (past : List Event) (a : Artifact) :
    Attempt where
  artifact := a
  options := options
  result := match a.pdf with
    | none => .error .missingPdf
    | some pdf =>
      if pdf.isEmpty then .error .emptyPdf
      else (around.upload past (remotePath a options.workDir) pdf options.timeout).map fun _ =>
        remotePath a options.workDir

/-- The attempts for artifacts in order. -/
def attempts (around : Surroundings) (options : Resolved) :
    List Artifact → List Event → List Attempt
  | [], _ => []
  | a :: as, past =>
    let x := attempt around options past a
    x :: attempts around options as (past ++ x.events)

variable {around : Surroundings} {options : Resolved}

theorem map_artifact_attempts (as : List Artifact) (past : List Event) :
    (attempts around options as past).map (·.artifact) = as := by
  induction as generalizing past with
  | nil => rfl
  | cons a as ih => exact congrArg (a :: ·) (ih _)

theorem options_of_mem_attempts {as : List Artifact} {past : List Event} {x : Attempt}
    (h : x ∈ attempts around options as past) : x.options = options := by
  induction as generalizing past with
  | nil => cases h
  | cons a as ih =>
    rcases List.mem_cons.1 h with rfl | h
    · rfl
    · exact ih h

/-- An attempt that succeeds went to the path of its artifact, with the artifact's file. -/
theorem path_of_mem_attempts {as : List Artifact} {past : List Event} {x : Attempt}
    (h : x ∈ attempts around options as past) {path : String} (hx : x.result = .ok path) :
    path = remotePath x.artifact x.options.workDir ∧ (file? x.artifact).isSome := by
  induction as generalizing past with
  | nil => cases h
  | cons a as ih =>
    rcases List.mem_cons.1 h with rfl | h
    · unfold attempt at hx ⊢
      dsimp only at hx ⊢
      cases hpdf : a.pdf with
      | none => simp [hpdf] at hx
      | some pdf =>
        by_cases hempty : pdf.isEmpty
        · simp [hpdf, hempty] at hx
        · simp only [hpdf, hempty, Bool.false_eq_true, ↓reduceIte] at hx
          cases hup : around.upload past (remotePath a options.workDir) pdf options.timeout with
          | error e => simp [hup, Except.map] at hx
          | ok _ =>
            simp only [hup, Except.map, Except.ok.injEq] at hx
            exact ⟨hx.symm, by simp [file?, hpdf, hempty]⟩
    · exact ih h

/-- The store after attempts were noted. -/
def noted (s : Store) (xs : List Attempt) : Store :=
  xs.foldl (fun s x => s.changeArtifact x.artifact.id x.onto) s

theorem on_deliver (around : Surroundings) (w : World) (options : Resolved) (a : Artifact) :
    (deliver options a).on around w = ((attempt around options w.past a).result,
      w.afterAll (attempt around options w.past a).events) := by
  unfold deliver attempt Attempt.events Attempt.upload? file?
  cases a.pdf with
  | none => simp only [Option.filter_none, Option.map_none, Option.toList_none, List.map_nil,
      World.afterAll, List.append_nil]; rfl
  | some pdf =>
    by_cases hempty : pdf.isEmpty
    · simp only [hempty, ↓reduceIte, Option.filter_some, Bool.not_true, Bool.false_eq_true,
        Option.map_none, Option.toList_none, List.map_nil, World.afterAll, List.append_nil]
      rfl
    · simp only [hempty, ↓reduceIte, Option.filter_some, Bool.not_false, Option.map_some,
        Option.toList_some, List.map_cons, List.map_nil, Bool.false_eq_true]
      rw [Work.on_bind, Work.on_attempt]
      simp only [Surroundings.answer]
      cases around.upload w.past (remotePath a options.workDir) pdf options.timeout <;> rfl

theorem on_processOne (around : Surroundings) (w : World) (options : Resolved) (a : Artifact) :
    let x := attempt around options w.past a
    (processOne options a).on around w =
      (.ok x.outcome, ⟨w.store.changeArtifact x.artifact.id x.onto, w.past ++ x.events⟩) := by
  intro x
  unfold processOne
  rw [Work.on_bind, Work.on_answer, on_deliver, ← x.after_id]
  rfl

theorem on_processAll (around : Surroundings) (w : World) (options : Resolved)
    (as : List Artifact) (report : Report) :
    let xs := attempts around options as w.past
    (processAll options as report).on around w =
      (.ok (xs.foldl (fun r x => r.count x.outcome) report),
        ⟨noted w.store xs, w.past ++ xs.flatMap (·.events)⟩) := by
  induction as generalizing w report with
  | nil => simp [attempts, noted, processAll, Work.on_pure]
  | cons a as ih =>
    unfold processAll
    rw [Work.on_bind_of_ok (on_processOne around w options a)]
    refine (ih _ _).trans ?_
    simp [attempts, noted]

/-! ## Runs -/

/-- The artifacts that a run selects. -/
def selected (options : Resolved) (s : Store) : List Artifact :=
  match s.selectArtifacts (wanted options) options.limit with
  | .ok as => as
  | .error _ => []

/-- The rows of the artifacts that a run selects. -/
def selectedRows (options : Resolved) (s : Store) : List ArtifactRow :=
  limited options.limit ((s.artifacts.rows.filter fun row =>
    row.unknown.isNone && (wanted options).contains row.artifact.status).mergeSort fun a b =>
      a.artifact.createdAt.stored ≤ b.artifact.createdAt.stored)

theorem sublist_limited {α : Type} (limit : Nat) (rows : List α) :
    (limited limit rows).Sublist rows := by
  unfold limited
  split
  · exact List.take_sublist ..
  · exact List.Sublist.refl _

theorem mem_selectedRows {s : Store} {row : ArtifactRow} (h : row ∈ selectedRows options s) :
    row ∈ s.artifacts.rows ∧ row.unknown = none ∧ row.artifact.status ∈ wanted options := by
  have hmem := (List.mergeSort_perm ..).mem_iff.1 ((sublist_limited ..).subset h)
  simpa using hmem

/-- What is selected can be read. -/
theorem selectArtifacts_eq (options : Resolved) (s : Store) :
    s.selectArtifacts (wanted options) options.limit =
      .ok ((selectedRows options s).map (·.artifact)) := by
  refine mapM_eq_ok.2 (List.forall₂_map_right_iff.2 (List.forall₂_same.2 fun row hrow => ?_))
  unfold readArtifact
  rw [(mem_selectedRows hrow).2.1]

theorem selected_eq (options : Resolved) (s : Store) :
    selected options s = (selectedRows options s).map (·.artifact) := by
  rw [selected, selectArtifacts_eq]

/-- **A run makes an attempt for every artifact it selects, and notes them.**  Whatever the answers
    are, it comes to its end. -/
theorem on_process (around : Surroundings) (w : World) (options : Options) :
    let xs := attempts around options.resolve (selected options.resolve w.store) w.past
    (process options).on around w = (.ok (xs.foldl (fun r x => r.count x.outcome) .empty),
      ⟨noted w.store xs, w.past ++ xs.flatMap (·.events)⟩) := by
  have hselect : (do liftM ((← get).selectArtifacts (wanted options.resolve)
      options.resolve.limit) : Action StoreError _) w.store =
        .ok (selected options.resolve w.store, w.store) := by
    rw [Action.get_bind_eq_ok, Action.lift_eq_ok, selected_eq]
    exact ⟨selectArtifacts_eq _ _, rfl⟩
  exact (Work.on_bind_of_ok (Work.on_store_of_ok hselect)).trans
    (on_processAll around w options.resolve _ .empty)

theorem mem_wanted {status : ArtifactStatus} :
    status ∈ wanted options ↔
      status = .syncPending ∨ options.includeFailed = true ∧ status = .syncFailed := by
  unfold wanted
  split <;> simp_all

theorem mem_selected {s : Store} {a : Artifact} (h : a ∈ selected options s) :
    s.Has a ∧ a.status ∈ wanted options := by
  rw [selected_eq, List.mem_map] at h
  obtain ⟨⟨a, unknown⟩, hrow, rfl⟩ := h
  obtain ⟨hmem, rfl, hstatus⟩ := mem_selectedRows hrow
  exact ⟨hmem, hstatus⟩

/-- No artifact is selected twice. -/
theorem nodup_selected {s : Store} (hs : s.artifacts.Numbered fun row => row.artifact.id) :
    ((selected options s).map (·.id)).Nodup := by
  have hrows : (s.artifacts.rows.map fun row => row.artifact.id).Nodup :=
    List.pairwise_map.2 (hs.ordered.imp fun h => Int.ne_of_lt h)
  rw [selected_eq, List.map_map]
  refine List.Nodup.sublist ((sublist_limited ..).map _) ?_
  refine ((List.mergeSort_perm ..).map _).nodup_iff.2 ?_
  exact hrows.sublist (List.filter_sublist.map _)

/-! ## Rows after a run -/

/-- A row after attempts: that of the attempt for its artifact, if there is one. -/
def settle (xs : List Attempt) (row : ArtifactRow) : ArtifactRow :=
  match xs.find? fun x => x.artifact.id == row.artifact.id with
  | some x => ⟨x.after, none⟩
  | none => row

theorem settle_of_forall_ne {xs : List Attempt} {row : ArtifactRow}
    (h : ∀ x ∈ xs, x.artifact.id ≠ row.artifact.id) : settle xs row = row := by
  unfold settle
  rw [List.find?_eq_none.2]
  simpa using h

theorem settle_cons_of_eq {x : Attempt} (xs : List Attempt) {row : ArtifactRow}
    (h : x.artifact.id = row.artifact.id) : settle (x :: xs) row = ⟨x.after, none⟩ := by
  simp [settle, h]

theorem settle_cons_of_ne {x : Attempt} (xs : List Attempt) {row : ArtifactRow}
    (h : x.artifact.id ≠ row.artifact.id) : settle (x :: xs) row = settle xs row := by
  simp [settle, h]

/-- Every row after attempts for different artifacts that are in the store. -/
theorem rows_noted {s : Store} (hs : s.artifacts.Numbered fun row => row.artifact.id)
    {xs : List Attempt} (hxs : ∀ x ∈ xs, s.Has x.artifact)
    (hd : (xs.map (·.artifact.id)).Nodup) :
    (noted s xs).artifacts.rows = s.artifacts.rows.map (settle xs) := by
  induction xs generalizing s with
  | nil =>
    have hid : settle [] = id := rfl
    rw [hid, List.map_id]
    rfl
  | cons x xs ih =>
    obtain ⟨hx, hxs⟩ := List.forall_mem_cons.1 hxs
    obtain ⟨hne, hd⟩ := List.nodup_cons.1 hd
    have hne : ∀ y ∈ xs, y.artifact.id ≠ x.artifact.id := fun y hy e =>
      hne (List.mem_map.2 ⟨y, hy, e⟩)
    let s₁ := s.changeArtifact x.artifact.id x.onto
    have hs₁ : s₁.artifacts.Numbered fun row => row.artifact.id := hs.change fun _ _ => rfl
    have hhas : ∀ y ∈ xs, s₁.Has y.artifact := fun y hy =>
      Table.mem_change.2 ⟨_, hxs y hy, if_neg (by simpa using hne y hy)⟩
    refine (ih hs₁ hhas hd).trans ((List.map_map ..).trans (List.map_congr_left fun row hrow => ?_))
    rw [Function.comp_apply]
    by_cases hid : x.artifact.id = row.artifact.id
    · obtain rfl : ⟨x.artifact, none⟩ = row := hs.eq_of_id_eq hx hrow hid
      dsimp only
      rw [settle_cons_of_eq xs rfl, if_pos (by simp), x.onto_artifact]
      exact settle_of_forall_ne fun y hy => x.after_id ▸ hne y hy
    · rw [settle_cons_of_ne xs hid, if_neg (by simpa using Ne.symm hid)]

end Delivery

end Waybill
