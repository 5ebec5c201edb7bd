/-
  What the jobs of a pack do, one after the other.

  A job reads the template and the rules of its document, asks for the day, fills the template and
  has it converted; then it is added to the artifact.  The first job that fails ends the work.

  * `rendered` is the spreadsheet of a job, `Done` a job that was done, `Fails` says how one fails;
  * `World.file` is the world after a job was done, `World.fileAll` after several;
  * `ItemOf` is an item as it comes from a job.

  Statements: `on_convertJob` (a job is done or fails), `on_convertJobs` (all jobs are done, or
  those before the first that fails).
-/
import Waybill.Proofs.Generation.Plan

namespace Waybill.Generation

open Waybill.Store

/-! ## Jobs that are done, and jobs that fail -/

/-- The spreadsheet of a job on a day: the template of its document filled by the live rules. -/
def rendered (setting : Setting) (s : Store) (p : Plan) (j : Job) (day : Calendar.Date) :
    Except PackError ByteArray := do
  let template ← templateOf setting j.document
  filled setting.format template (s.rulesOf j.document.id)
    (payloadOf p.shipment j.carton j.document day)

/-- A job that was done: the day, the spreadsheet, and what it was converted to. -/
structure Done where
  job : Job
  day : Calendar.Date
  xlsx : ByteArray
  pdf : ByteArray

namespace Done

/-- The item that is added for the job. -/
def item (artifact : Id) (x : Done) (id : Id) : ArtifactItem where
  id := id
  artifact := artifact
  type := x.job.document.type
  variant := x.job.document.variant
  sequence := x.job.document.sequence
  xlsxName := x.job.stem ++ ".xlsx"
  xlsx := x.xlsx
  pdfName := x.job.stem ++ ".pdf"
  pdf := x.pdf

/-- The calls that the job made. -/
def events (timeout : Nat) (x : Done) : List Event :=
  [.today x.day, .convert x.xlsx (x.job.stem ++ ".xlsx") timeout (.ok x.pdf)]

end Done

/-- How a job fails: with which error, after which calls. -/
inductive Fails (setting : Setting) (s : Store) (p : Plan) (j : Job) : List Event → PackError → Prop
  | template {e : PackError} (h : templateOf setting j.document = .error e) :
    Fails setting s p j [] e
  | fill {day : Calendar.Date} {e : PackError} (h : rendered setting s p j day = .error e) :
    Fails setting s p j [.today day] e
  | conversion {day : Calendar.Date} {xlsx : ByteArray} {e : Drive.ConversionError}
    (h : rendered setting s p j day = .ok xlsx) :
    Fails setting s p j
      [.today day, .convert xlsx (j.stem ++ ".xlsx") setting.timeout (.error e)] (.conversion e)

theorem rendered_of_rules {setting : Setting} {s s' : Store} (hr : s'.rules = s.rules) (p : Plan)
    (j : Job) (day : Calendar.Date) : rendered setting s' p j day = rendered setting s p j day := by
  unfold rendered rulesOf ruleRows
  rw [hr]

theorem Fails.of_rules {setting : Setting} {s s' : Store} {p : Plan} {j : Job}
    {events : List Event} {e : PackError} (hr : s'.rules = s.rules)
    (h : Fails setting s' p j events e) : Fails setting s p j events e := by
  cases h with
  | template h => exact .template h
  | fill h => exact .fill (rendered_of_rules hr p j _ ▸ h)
  | conversion h => exact .conversion (rendered_of_rules hr p j _ ▸ h)

/-! ## Worlds after jobs -/

/-- The world after a job was done for an artifact. -/
def World.file (w : World) (timeout : Nat) (artifact : Id) (x : Done) : World where
  store := { w.store with items := w.store.items.push (x.item artifact) }
  past := w.past ++ x.events timeout

/-- The world after jobs were done for an artifact. -/
def World.fileAll (w : World) (timeout : Nat) (artifact : Id) (xs : List Done) : World :=
  xs.foldl (fun w x => w.file timeout artifact x) w

theorem World.fileAll_cons (w : World) (timeout : Nat) (artifact : Id) (x : Done)
    (xs : List Done) :
    w.fileAll timeout artifact (x :: xs) =
      (w.file timeout artifact x).fileAll timeout artifact xs := rfl

/-- The items that are added for jobs, numbered from a number on. -/
def Done.items (artifact next : Id) : List Done → List ArtifactItem
  | [] => []
  | x :: xs => x.item artifact next :: items artifact (next + 1) xs

theorem World.past_fileAll (w : World) (timeout : Nat) (artifact : Id) (xs : List Done) :
    (w.fileAll timeout artifact xs).past = w.past ++ xs.flatMap (·.events timeout) := by
  induction xs generalizing w with
  | nil => simp [World.fileAll]
  | cons x xs ih =>
    rw [World.fileAll_cons, ih, List.flatMap_cons, ← List.append_assoc]
    rfl

theorem World.store_fileAll (w : World) (timeout : Nat) (artifact : Id) (xs : List Done) :
    ∃ t, (w.fileAll timeout artifact xs).store = { w.store with items := t } ∧
      t.rows = w.store.items.rows ++ Done.items artifact w.store.items.next xs := by
  induction xs generalizing w with
  | nil => exact ⟨w.store.items, rfl, by simp [Done.items]⟩
  | cons x xs ih =>
    obtain ⟨t, hstore, ht⟩ := ih (w.file timeout artifact x)
    refine ⟨t, hstore, ?_⟩
    rw [ht, Done.items]
    simp only [World.file, Table.rows_push, List.append_assoc, List.singleton_append]
    rfl

/-- An item as it comes from a job. -/
structure ItemOf (setting : Setting) (s : Store) (p : Plan) (artifact : Id) (j : Job)
    (i : ArtifactItem) : Prop where
  artifact : i.artifact = artifact
  type : i.type = j.document.type
  variant : i.variant = j.document.variant
  sequence : i.sequence = j.document.sequence
  xlsxName : i.xlsxName = j.stem ++ ".xlsx"
  pdfName : i.pdfName = j.stem ++ ".pdf"
  xlsx : ∃ day, rendered setting s p j day = .ok i.xlsx

namespace Done

theorem forall₂_items {setting : Setting} {s : Store} {p : Plan} (artifact next : Id)
    {xs : List Done} (hxs : ∀ x ∈ xs, rendered setting s p x.job x.day = .ok x.xlsx) :
    List.Forall₂ (ItemOf setting s p artifact) (xs.map (·.job)) (items artifact next xs) := by
  induction xs generalizing next with
  | nil => exact .nil
  | cons x xs ih =>
    obtain ⟨hx, hxs⟩ := List.forall_mem_cons.1 hxs
    exact .cons ⟨rfl, rfl, rfl, rfl, rfl, rfl, x.day, hx⟩ (ih (next + 1) hxs)

theorem artifact_of_mem_items {artifact next : Id} {xs : List Done} {i : ArtifactItem}
    (h : i ∈ items artifact next xs) : i.artifact = artifact := by
  induction xs generalizing next with
  | nil => cases h
  | cons x xs ih =>
    rcases List.mem_cons.1 h with rfl | h
    · rfl
    · exact ih h

theorem map_pdf_items (artifact next : Id) (xs : List Done) :
    (items artifact next xs).map (·.pdf) = xs.map (·.pdf) := by
  induction xs generalizing next with
  | nil => rfl
  | cons x xs ih => exact congrArg (x.pdf :: ·) (ih (next + 1))

theorem conversions_events (timeout : Nat) (artifact next : Id) (xs : List Done) :
    conversions (xs.flatMap (·.events timeout)) =
      (items artifact next xs).map fun i => (i.xlsx, i.xlsxName, timeout, .ok i.pdf) := by
  induction xs generalizing next with
  | nil => rfl
  | cons x xs ih => exact congrArg (_ :: ·) (ih (next + 1))

theorem merges_events (timeout : Nat) (xs : List Done) :
    merges (xs.flatMap (·.events timeout)) = [] := by
  induction xs with
  | nil => rfl
  | cons x xs ih => exact ih

end Done

theorem Fails.merges_eq {setting : Setting} {s : Store} {p : Plan} {j : Job}
    {events : List Event} {e : PackError} (h : Fails setting s p j events e) :
    merges events = [] := by
  cases h <;> rfl

/-! ## Runs of jobs -/

variable {around : Surroundings} {w : World} {setting : Setting} {p : Plan}

theorem on_renderJob (j : Job) :
    (renderJob setting p j).on around w = match templateOf setting j.document with
      | .error e => (.error e, w)
      | .ok _ => (rendered setting w.store p j (around.today w.past),
          w.after (.today (around.today w.past))) := by
  unfold renderJob rendered
  simp only [Work.on_bind, Work.on_lift]
  cases templateOf setting j.document with
  | error e => rfl
  | ok template =>
    have hrules : (do return (← get).rulesOf j.document.id : Action StoreError _) w.store =
        .ok (w.store.rulesOf j.document.id, w.store) := rfl
    simp only [Work.on_store_of_ok hrules]
    rfl

/-- A job is done, or fails. -/
theorem on_convertJob (around : Surroundings) (w : World) {artifact : Id} (j : Job)
    (ha : ∃ row ∈ w.store.artifacts.rows, row.artifact.id = artifact) :
    (∃ x : Done, x.job = j ∧ rendered setting w.store p j x.day = .ok x.xlsx ∧
      (convertJob setting p artifact j).on around w =
        (.ok x.pdf, w.file setting.timeout artifact x)) ∨
    ∃ events e, Fails setting w.store p j events e ∧
      (convertJob setting p artifact j).on around w = (.error e, w.afterAll events) := by
  have hrender : (renderJob setting p j).on around w = _ := on_renderJob j
  cases ht : templateOf setting j.document with
  | error e =>
    rw [ht] at hrender
    refine Or.inr ⟨[], e, .template ht, (Work.on_bind_of_error hrender).trans ?_⟩
    simp [World.afterAll]
  | ok template =>
    rw [ht] at hrender
    dsimp only at hrender
    cases hx : rendered setting w.store p j (around.today w.past) with
    | error e =>
      rw [hx] at hrender
      exact Or.inr ⟨_, e, .fill hx, Work.on_bind_of_error hrender⟩
    | ok xlsx =>
      rw [hx] at hrender
      let w₁ := w.after (.today (around.today w.past))
      rcases Work.on_convert PackError.conversion xlsx (j.stem ++ ".xlsx") setting.timeout with
        ⟨pdf, hconvert⟩ | ⟨e, hconvert⟩
      · let x : Done := ⟨j, around.today w.past, xlsx, pdf⟩
        let w₂ := w₁.after (.convert xlsx (j.stem ++ ".xlsx") setting.timeout (.ok pdf))
        have hitem : insertItem (x.item artifact 0) w₂.store =
            .ok (w.store.items.next, (w.file setting.timeout artifact x).store) :=
          insertItem_eq_ok.2 ⟨ha, rfl, rfl⟩
        refine Or.inl ⟨x, rfl, hx, (Work.on_bind_of_ok hrender).trans ?_⟩
        refine (Work.on_bind_of_ok hconvert).trans
          ((Work.on_bind_of_ok (Work.on_store_of_ok hitem)).trans ?_)
        simp [Work.on_pure, World.file, w₂, w₁, x, Done.events]
      · refine Or.inr ⟨_, .conversion e, .conversion hx, (Work.on_bind_of_ok hrender).trans ?_⟩
        exact (Work.on_bind_of_error hconvert).trans (by simp [World.afterAll, World.after])

/-- **All jobs are done, or those before the first that fails.** -/
theorem on_convertJobs (around : Surroundings) (w : World) {artifact : Id} (js : List Job)
    (ha : ∃ row ∈ w.store.artifacts.rows, row.artifact.id = artifact) :
    ∃ xs : List Done, (∀ x ∈ xs, rendered setting w.store p x.job x.day = .ok x.xlsx) ∧
      ((js = xs.map (·.job) ∧ (convertJobs setting p artifact js).on around w =
          (.ok (xs.map (·.pdf)), w.fileAll setting.timeout artifact xs)) ∨
        ∃ j rest events e, js = xs.map (·.job) ++ j :: rest ∧
          Fails setting w.store p j events e ∧ (convertJobs setting p artifact js).on around w =
            (.error e, (w.fileAll setting.timeout artifact xs).afterAll events)) := by
  induction js generalizing w with
  | nil => exact ⟨[], by simp, Or.inl ⟨rfl, rfl⟩⟩
  | cons j js ih =>
    unfold convertJobs
    rcases on_convertJob around w j ha with ⟨x, rfl, hx, hon⟩ | ⟨events, e, hfails, hon⟩
    · obtain ⟨xs, hxs, h⟩ := ih (w.file setting.timeout artifact x) ha
      refine ⟨x :: xs, List.forall_mem_cons.2 ⟨hx, hxs⟩, ?_⟩
      rw [Work.on_bind_of_ok hon]
      rcases h with ⟨rfl, hrun⟩ | ⟨k, rest, events, e, rfl, hfails, hrun⟩
      · exact Or.inl ⟨rfl, Work.on_bind_of_ok hrun⟩
      · exact Or.inr ⟨k, rest, events, e, rfl, hfails.of_rules (by rfl), Work.on_bind_of_error hrun⟩
    · exact ⟨[], by simp, Or.inr ⟨j, js, events, e, rfl, hfails, Work.on_bind_of_error hon⟩⟩

end Waybill.Generation
