/-
  Generating a pack and serving its spreadsheets.

  A pack may be generated, document by document, or only rendered.  Both begin with the same plan,
  and on one day a job has one spreadsheet.

  * `sheet` is the spreadsheet of a job on a day, by its name; `Done.sheet` and `itemSheet` are
    those of a job that was done and of an item.

  Statements: `days_of_run` (a run on one day reads no other), `on_renderJobs` (what rendering comes
  to), `on_convertJobs_day` and `on_artifact_day` (how far a generation comes),
  `rendering_paths_agree`.
-/
import Waybill.Proofs.Delivery.Log

namespace Waybill.Generation

open Waybill.Store

/-! ## Spreadsheets -/

/-- The spreadsheet of a job on a day, by the name of its file. -/
def sheet (setting : Setting) (s : Store) (p : Plan) (day : Calendar.Date) (j : Job) :
    Except PackError Rendered :=
  (rendered setting s p j day).map fun bytes => ⟨j.stem ++ ".xlsx", bytes⟩

/-- The spreadsheet of a job that was done. -/
def Done.sheet (x : Done) : Rendered := ⟨x.job.stem ++ ".xlsx", x.xlsx⟩

/-- The spreadsheet of an item. -/
def itemSheet (i : ArtifactItem) : Rendered := ⟨i.xlsxName, i.xlsx⟩

theorem map_itemSheet_items (artifact next : Id) (xs : List Done) :
    (Done.items artifact next xs).map itemSheet = xs.map (·.sheet) := by
  induction xs generalizing next with
  | nil => rfl
  | cons x xs ih => exact congrArg (x.sheet :: ·) (ih (next + 1))

/-! ## One day -/

section
variable {around : Surroundings} {day : Calendar.Date} (hday : ∀ past, around.today past = day)
include hday

/-- A run on one day reads no other. -/
theorem days_of_run {ε α : Type} (work : Work ε α) (w : World) :
    ∃ events, (work.on around w).2.past = w.past ++ events ∧ ∀ d, .today d ∈ events → d = day := by
  unfold Work.on
  induction work.run generalizing w with
  | done answer => exact ⟨[], (List.append_nil _).symm, by simp⟩
  | call c next ih =>
    have hanswer : ∃ events, (around.answer _ c w).2.past = w.past ++ events ∧
        ∀ d, .today d ∈ events → d = day := by
      cases c with
      | store action => exact ⟨[], (List.append_nil _).symm, by simp⟩
      | today => exact ⟨_, rfl, by simp [hday]⟩
      | convert | merge | upload | now => exact ⟨_, rfl, by simp⟩
    obtain ⟨events, hpast, hevents⟩ := hanswer
    obtain ⟨more, hpast', hmore⟩ := ih _ (around.answer _ c w).2
    refine ⟨events ++ more, ?_, fun d hd => ?_⟩
    · rw [← List.append_assoc, ← hpast]
      exact hpast'
    · exact (List.mem_append.1 hd).elim (hevents d) (hmore d)

theorem on_renderJob_day (setting : Setting) (p : Plan) (j : Job) (w : World) :
    ∃ w', (renderJob setting p j).on around w = (rendered setting w.store p j day, w') ∧
      w'.store = w.store := by
  have hon : (renderJob setting p j).on around w = _ := on_renderJob j
  cases ht : templateOf setting j.document with
  | error e =>
    have hfails : rendered setting w.store p j day = .error e := by
      rw [rendered, ht]
      rfl
    rw [ht] at hon
    exact ⟨w, hfails ▸ hon, rfl⟩
  | ok template =>
    rw [ht, hday] at hon
    exact ⟨w.after (.today day), hon, rfl⟩

/-- Rendering jobs comes to their spreadsheets, and leaves the store as it is. -/
theorem on_renderJobs (setting : Setting) (p : Plan) (js : List Job) (w : World) :
    ∃ w', (renderJobs setting p js).on around w =
        (js.mapM (sheet setting w.store p day), w') ∧ w'.store = w.store := by
  induction js generalizing w with
  | nil => exact ⟨w, rfl, rfl⟩
  | cons j js ih =>
    obtain ⟨w₁, hjob, hstore⟩ := on_renderJob_day hday setting p j w
    obtain ⟨w₂, hjobs, hstore'⟩ := ih w₁
    rw [hstore] at hjobs hstore'
    rw [renderJobs, List.mapM_cons, sheet]
    cases hx : rendered setting w.store p j day with
    | error e =>
      rw [hx] at hjob
      exact ⟨w₁, Work.on_bind_of_error hjob, hstore⟩
    | ok bytes =>
      rw [hx] at hjob
      refine ⟨w₂, (Work.on_bind_of_ok hjob).trans ?_, hstore'⟩
      rw [Work.on_bind, hjobs]
      cases js.mapM (sheet setting w.store p day) <;> rfl

/-- Jobs on one day: all are done, or those before the first that fails, either to be rendered or to
    be converted. -/
theorem on_convertJobs_day (setting : Setting) (p : Plan) (w : World) {artifact : Id}
    (js : List Job) (ha : ∃ row ∈ w.store.artifacts.rows, row.artifact.id = artifact) :
    ∃ xs : List Done, (∀ x ∈ xs, sheet setting w.store p day x.job = .ok x.sheet) ∧
      ((js = xs.map (·.job) ∧ (convertJobs setting p artifact js).on around w =
          (.ok (xs.map (·.pdf)), w.fileAll setting.timeout artifact xs)) ∨
        ∃ j rest e w', js = xs.map (·.job) ++ j :: rest ∧
          (sheet setting w.store p day j = .error e ∨ ∃ c, e = .conversion c) ∧
          (convertJobs setting p artifact js).on around w = (.error e, w') ∧
          w'.store = (w.fileAll setting.timeout artifact xs).store) := by
  obtain ⟨xs, hxs, h⟩ := @on_convertJobs setting p around w artifact js ha
  obtain ⟨events, hpast, hevents⟩ := days_of_run hday (convertJobs setting p artifact js) w
  -- the days of the jobs are among those that were read
  have hdays : (∀ x ∈ xs, .today x.day ∈ events) →
      ∀ x ∈ xs, sheet setting w.store p day x.job = .ok x.sheet := fun hmem x hx => by
    rw [sheet, ← hevents x.day (hmem x hx), hxs x hx]
    rfl
  have hread : ∀ x ∈ xs, .today x.day ∈ xs.flatMap (·.events setting.timeout) := fun x hx =>
    List.mem_flatMap.2 ⟨x, hx, List.mem_cons_self⟩
  rcases h with ⟨hjs, hon⟩ | ⟨j, rest, last, e, hjs, hfails, hon⟩
  · rw [hon, World.past_fileAll, List.append_cancel_left_eq] at hpast
    subst hpast
    exact ⟨xs, hdays hread, Or.inl ⟨hjs, hon⟩⟩
  · rw [hon, World.afterAll, World.past_fileAll, List.append_assoc,
      List.append_cancel_left_eq] at hpast
    subst hpast
    refine ⟨xs, hdays fun x hx => List.mem_append_left _ (hread x hx),
      Or.inr ⟨j, rest, e, _, hjs, ?_, hon, rfl⟩⟩
    cases hfails with
    | template h =>
      rw [sheet, rendered, h]
      exact Or.inl rfl
    | @fill d e h =>
      rw [sheet, ← hevents d (List.mem_append_right _ List.mem_cons_self), h]
      exact Or.inl rfl
    | @conversion d xlsx e h => exact Or.inr ⟨e, rfl⟩

/-- How far the work for a new artifact comes on one day, with the jobs whose items it adds: through
    all jobs, to end with the artifact or at the merger, or to a job that fails to be rendered or to
    be converted. -/
theorem on_artifact_day (setting : Setting) (p : Plan) {s : Store} (hs : s.Sound)
    (new : NewArtifact) (past : List Event) {js : List Job} (hjs : js ≠ []) :
    ∃ result w' xs, (tryCatch (renderArtifact setting p js s.artifacts.next)
        (giveUp s.artifacts.next)).on around ⟨withArtifact s new s.items, past⟩ = (result, w') ∧
      w'.store.items.rows =
        s.items.rows ++ Done.items s.artifacts.next s.items.next xs ∧
      (∀ x ∈ xs, sheet setting s p day x.job = .ok x.sheet) ∧
      ((js = xs.map (·.job) ∧ ((∃ a, result = .ok a ∧ a.id = s.artifacts.next) ∨
          ∃ e, result = .error (.pdf e))) ∨
        ∃ j rest e, js = xs.map (·.job) ++ j :: rest ∧ result = .error e ∧
          (sheet setting s p day j = .error e ∨ ∃ c, e = .conversion c)) := by
  let w : World := ⟨withArtifact s new s.items, past⟩
  have ha : ∃ row ∈ w.store.artifacts.rows, row.artifact.id = s.artifacts.next :=
    ⟨_, Table.mem_push.2 (Or.inr rfl), rfl⟩
  obtain ⟨xs, hxs, hrun⟩ := on_convertJobs_day hday setting p w js ha
  obtain ⟨t, hstore, hrows⟩ := w.store_fileAll setting.timeout s.artifacts.next xs
  rcases hrun with ⟨rfl, hon⟩ | ⟨j, rest, e, w', rfl, hfails, hon, hstore'⟩
  · rw [show w.fileAll setting.timeout s.artifacts.next xs = ⟨withArtifact s new t, _⟩ from
      congrArg (World.mk · _) hstore] at hon
    have hpdfs : xs.map (·.pdf) ≠ [] := by simpa using hjs
    rcases on_finish around hs new t _ hpdfs with ⟨now, pdf, events, hfinish, -⟩ | ⟨e, hfinish⟩
    · exact ⟨_, _, xs, Work.on_tryCatch_of_ok ((Work.on_bind_of_ok hon).trans hfinish), hrows, hxs,
        Or.inl ⟨rfl, Or.inl ⟨_, rfl, rfl⟩⟩⟩
    · exact ⟨_, _, xs, (Work.on_tryCatch_of_error ((Work.on_bind_of_ok hon).trans hfinish)).trans
        (on_giveUp ..), hrows, hxs, Or.inl ⟨rfl, Or.inr ⟨e, rfl⟩⟩⟩
  · refine ⟨_, _, xs, (Work.on_tryCatch_of_error (Work.on_bind_of_error hon)).trans
      (on_giveUp ..), ?_, hxs, Or.inr ⟨j, rest, e, rfl, rfl, hfails⟩⟩
    exact (congrArg (·.items.rows) (hstore'.trans hstore)).trans hrows

end

/-! ## Agreement -/

theorem mapM_sheet_append {sheet : Job → Except PackError Rendered} {xs : List Done}
    (hxs : ∀ x ∈ xs, sheet x.job = .ok x.sheet) (js : List Job) :
    (xs.map (·.job) ++ js).mapM sheet = (js.mapM sheet).map (xs.map (·.sheet) ++ ·) := by
  induction xs with
  | nil => cases h : js.mapM sheet <;> simp [h, Except.map]
  | cons x xs ih =>
    obtain ⟨hx, hxs⟩ := List.forall_mem_cons.1 hxs
    rw [List.map_cons, List.cons_append, List.mapM_cons, hx, ih hxs]
    cases js.mapM sheet <;> rfl

theorem prefix_of_mapM_sheet {sheet : Job → Except PackError Rendered} {xs : List Done}
    (hxs : ∀ x ∈ xs, sheet x.job = .ok x.sheet) {js : List Job} {rs : List Rendered}
    (h : (xs.map (·.job) ++ js).mapM sheet = .ok rs) : xs.map (·.sheet) <+: rs := by
  rw [mapM_sheet_append hxs] at h
  cases hjs : js.mapM sheet with
  | error e =>
    rw [hjs] at h
    cases h
  | ok more =>
    rw [hjs] at h
    rw [← Except.ok.inj h]
    exact List.prefix_append _ _

/-- **Generating a pack and serving its spreadsheets agree.**  On one day and one store: when the
    generation succeeds, the spreadsheets that are served are those of its items, in order; when it
    fails to be planned or rendered, serving fails with the same error; and wherever it fails, its
    items have the first of the spreadsheets that are served, if they are.  Serving leaves the store
    as it is. -/
theorem rendering_paths_agree (setting : Setting) (request : Request)
    (around around' : Surroundings) (day : Calendar.Date)
    (hday : ∀ past, around.today past = day) (hday' : ∀ past, around'.today past = day) (s : Store)
    (hs : s.Sound) (past past' : List Event) :
    let generated := (generate setting request).on around ⟨s, past⟩
    let served := (renderPack setting request).on around' ⟨s, past'⟩
    served.2.store = s ∧
    (∀ a, generated.1 = .ok a →
      served.1 = .ok ((generated.2.store.itemsOf a.id).map itemSheet)) ∧
    (∀ e, generated.1 = .error e → (∀ c, e ≠ .conversion c) → (∀ c, e ≠ .pdf c) →
      served.1 = .error e) ∧
    ∀ e, generated.1 = .error e → ∃ items, generated.2.store.items.rows = s.items.rows ++ items ∧
      ∀ rs, served.1 = .ok rs → items.map itemSheet <+: rs := by
  intro generated served
  have hgenerated : generated = _ :=
    on_planning around ⟨s, past⟩ setting request (carryOut setting request)
  have hserved : served = _ :=
    on_planning around' ⟨s, past'⟩ setting request (renderJobs setting)
  cases hp : planned setting request s with
  | error e =>
    rw [hp] at hgenerated hserved
    rw [hgenerated, hserved]
    refine ⟨rfl, by simp, ?_, ?_⟩
    · rintro _ ⟨⟩ - -
      rfl
    · exact fun _ _ => ⟨[], (List.append_nil _).symm, by simp⟩
  | ok planned =>
    obtain ⟨p, js⟩ := planned
    rw [hp] at hgenerated hserved
    obtain ⟨w', hjobs, hstore⟩ := on_renderJobs hday' setting p js ⟨s, past'⟩
    obtain ⟨result, w'', xs, hrun, hitems, hxs, h⟩ := on_artifact_day hday setting p hs
      (p.newArtifact request (around.now past)) (past ++ [.now (around.now past)])
      (planned_jobs_ne_nil hp)
    have hcarry : (carryOut setting request p js).on around ⟨s, past⟩ = (result, w'') :=
      (on_carryOut_start around setting request ⟨s, past⟩ hs p js).trans hrun
    rw [hgenerated, hserved]
    dsimp only
    rw [hcarry, hjobs]
    have hsheets := map_itemSheet_items s.artifacts.next s.items.next xs
    rcases h with ⟨rfl, h⟩ | ⟨j, rest, e, rfl, rfl, hfails⟩
    · have hall : (xs.map (·.job)).mapM (sheet setting s p day) = .ok (xs.map (·.sheet)) := by
        simpa [Except.map, pure, Except.pure] using mapM_sheet_append hxs []
      refine ⟨hstore, fun a ha => ?_, fun e he _ hpdf => ?_,
        fun e _ => ⟨_, hitems, fun rs hrs => ?_⟩⟩
      · rcases h with ⟨b, rfl, hb⟩ | ⟨e, rfl⟩
        · obtain rfl : b = a := Except.ok.inj ha
          have hof := itemsOf_fresh hs hitems fun _ => Done.artifact_of_mem_items
          rw [hb, hof, hsheets]
          exact hall
        · cases ha
      · rcases h with ⟨b, rfl, -⟩ | ⟨c, rfl⟩
        · cases he
        · exact (hpdf c (Except.error.inj he).symm).elim
      · rw [hall] at hrs
        rw [hsheets, Except.ok.inj hrs]
    · refine ⟨hstore, by simp, fun e' he hconversion _ => ?_, fun _ _ =>
        ⟨_, hitems, fun rs hrs => hsheets ▸ prefix_of_mapM_sheet hxs hrs⟩⟩
      obtain rfl : e = e' := Except.error.inj he
      rcases hfails with hj | ⟨c, rfl⟩
      · rw [mapM_sheet_append hxs, List.mapM_cons, hj]
        rfl
      · exact (hconversion c rfl).elim

/-- A pack of one document is generated, and the one spreadsheet that is served is that of its
    item. -/
theorem sample_paths_agree : ∃ a,
    ((generate sampleSetting (.ofPack "A")).on (Delivery.uploading (.ok ()))
      (World.start.runAll [Delivery.blankImport])).1 = .ok a ∧
    ((renderPack sampleSetting (.ofPack "A")).on (Delivery.uploading (.ok ()))
      (World.start.runAll [Delivery.blankImport])).1 =
        .ok ((((generate sampleSetting (.ofPack "A")).on (Delivery.uploading (.ok ()))
          (World.start.runAll [Delivery.blankImport])).2.store.itemsOf a.id).map itemSheet) := by
  have hgenerated : ((generate sampleSetting (.ofPack "A")).on (Delivery.uploading (.ok ()))
      (World.start.runAll [Delivery.blankImport])).1.isOk := by
    decide +kernel
  have hs : (World.start.runAll [Delivery.blankImport]).store.Sound := sound_runAll sound_empty _
  generalize World.start.runAll [Delivery.blankImport] = w at hgenerated hs ⊢
  obtain ⟨s, past⟩ := w
  obtain ⟨-, hserved, -⟩ := rendering_paths_agree sampleSetting (.ofPack "A")
    (Delivery.uploading (.ok ())) (Delivery.uploading (.ok ())) .epoch (fun _ => rfl) (fun _ => rfl)
    s hs past past
  cases h : ((generate sampleSetting (.ofPack "A")).on (Delivery.uploading (.ok ()))
      ⟨s, past⟩).1 with
  | error e =>
    rw [h] at hgenerated
    cases hgenerated
  | ok a => exact ⟨a, rfl, hserved a h⟩

end Waybill.Generation
