/-
  Generation while others change documents.

  Between two steps of a run, others may change documents: each of their changes is an action that
  is done as a whole, and so is each step of the run on the store.  (Reading a pack and reading its
  documents may count as one step, since a change to a document leaves the packs alone.)

  * `Landing` is a change that others make, a `Schedule` says which land before the next step;
  * `Scene` is a world with the stores before it, `Work.amid` runs work in one;
  * `Offered`: a spreadsheet comes from a store since an earlier scene, `Draws`: all that were
    converted do;
  * `Filling`: a spreadsheet has the template of one store and the rules of another, `Whole`: both
    were live together.

  Statements: `amid_planning` (a run is planned from one store), `offered_renderJob` (a job reads
  its rules from a later one), `spreadsheets_sourced` (every spreadsheet has the template of the
  first and the rules of the second), `torn_spreadsheet` (which need not have been live together).
-/
import Mathlib
import Waybill.Proofs.Catalog.Lookup
import Waybill.Proofs.Generation.Artifact
import Waybill.Proofs.Operation

namespace Waybill.Generation

open Waybill.Store

/-! ## Changes by others -/

/-- A change to a document that others make. -/
structure Landing where
  change : History.Change
  signature : History.Signature
  note : String

/-- The store after the change, which may have been refused. -/
def Landing.on (l : Landing) (s : Store) : Store :=
  (s.run (l.change.action l.signature l.note)).2

theorem Landing.recorded_on (l : Landing) {s : Store} (hs : s.Recorded) : (l.on s).Recorded :=
  ((l.change.advances_action l.signature l.note).run s hs).1

/-- The changes that others make before the next step, in view of the stores there have been. -/
abbrev Schedule := List Store → List Landing

/-! ## Scenes -/

/-- A world with the stores before it. -/
structure Scene where
  world : World
  earlier : List Store

namespace Scene

/-- A world that a run begins in. -/
def start (w : World) : Scene := ⟨w, []⟩

/-- The stores there have been, the present one last. -/
def moments (sc : Scene) : List Store := sc.earlier ++ [sc.world.store]

/-- The stores since an earlier scene. -/
def since (sc sc₀ : Scene) : List Store := sc.moments.drop sc₀.moments.length

/-- The scene after a change by others. -/
def land (sc : Scene) (l : Landing) : Scene :=
  ⟨{ sc.world with store := l.on sc.world.store }, sc.moments⟩

/-- The scene once others had their turn. -/
def meanwhile (sc : Scene) (others : Schedule) : Scene :=
  (others sc.moments).foldl land sc

/-- The scene after a step of the run that leaves the store as it is. -/
def looked (sc : Scene) (others : Schedule) : Scene :=
  ⟨(sc.meanwhile others).world, (sc.meanwhile others).moments⟩

/-- One scene leads to another by more events. -/
structure Leads (sc : Scene) (events : List Event) (sc' : Scene) : Prop where
  moments : sc.moments <+: sc'.moments
  past : sc'.world.past = sc.world.past ++ events

theorem Leads.refl (sc : Scene) : Leads sc [] sc :=
  ⟨List.prefix_refl _, (List.append_nil _).symm⟩

theorem Leads.trans {sc sc' sc'' : Scene} {events events' : List Event}
    (h : Leads sc events sc') (h' : Leads sc' events' sc'') :
    Leads sc (events ++ events') sc'' where
  moments := h.moments.trans h'.moments
  past := by rw [h'.past, h.past, List.append_assoc]

theorem leads_meanwhile (sc : Scene) (others : Schedule) : Leads sc [] (sc.meanwhile others) := by
  unfold meanwhile
  generalize others sc.moments = ls
  induction ls generalizing sc with
  | nil => exact .refl sc
  | cons l ls ih =>
    have hland : Leads sc [] (sc.land l) := ⟨List.prefix_append _ _, (List.append_nil _).symm⟩
    exact hland.trans (ih (sc.land l))

theorem past_looked (sc : Scene) (others : Schedule) :
    (sc.looked others).world.past = sc.world.past :=
  (sc.leads_meanwhile others).past.trans (List.append_nil _)

theorem recorded_meanwhile {sc : Scene} (hs : sc.world.store.Recorded) (others : Schedule) :
    (sc.meanwhile others).world.store.Recorded := by
  unfold meanwhile
  generalize others sc.moments = ls
  induction ls generalizing sc with
  | nil => exact hs
  | cons l ls ih => exact @ih (sc.land l) (l.recorded_on hs)

theorem since_subset {sc₀ sc sc' : Scene} (h : sc.moments <+: sc'.moments) :
    sc.since sc₀ ⊆ sc'.since sc₀ :=
  (h.drop _).subset

/-- The store that a scene comes to is one since an earlier scene, if a step was done in between. -/
theorem mem_since {sc₀ sc sc' : Scene} (h : sc₀.moments <+: sc.moments)
    (h' : sc'.earlier = sc.moments) : sc'.world.store ∈ sc'.since sc₀ := by
  have hmoments : sc'.moments = sc.moments ++ [sc'.world.store] := by rw [moments, h']
  rw [since, hmoments, List.drop_append_of_le_length h.length_le]
  exact List.mem_concat_self

end Scene

/-! ## Runs amid changes -/

/-- The answer to a call, once others had their turn. -/
def Surroundings.amid (around : Surroundings) (others : Schedule) :
    Program.Handler Step (StateM Scene) := fun _ c sc =>
  let ready := sc.meanwhile others
  ((around.answer _ c ready.world).1, ⟨(around.answer _ c ready.world).2, ready.moments⟩)

/-- The step is no conversion. -/
def Step.Calm : (β : Type) → Step β → Prop
  | _, .convert _ _ _ => False
  | _, _ => True

namespace Work

variable {ε δ α β : Type} {around : Surroundings} {others : Schedule} {sc : Scene}

/-- Runs work in a scene; gives its answer or error, with the scene after it. -/
def amid (work : Work ε α) (around : Surroundings) (others : Schedule) (sc : Scene) :
    Except ε α × Scene :=
  Program.run (around.amid others) work.run sc

theorem amid_lift (x : Except ε α) : (liftM x : Work ε α).amid around others sc = (x, sc) := by
  cases x <;> rfl

theorem amid_bind (work : Work ε α) (f : α → Work ε β) :
    (work >>= f).amid around others sc = match work.amid around others sc with
      | (.ok a, sc') => (f a).amid around others sc'
      | (.error e, sc') => (.error e, sc') := by
  have h := congrFun (Program.run_bind (around.amid others) work.run (ExceptT.bindCont f)) sc
  refine h.trans ?_
  change (match work.amid around others sc with
    | (answer, sc') => Program.run (around.amid others) (ExceptT.bindCont f answer) sc') = _
  rcases work.amid around others sc with ⟨e | a, sc'⟩ <;> rfl

theorem amid_bind_eq_ok {work : Work ε α} {f : α → Work ε β} {b : β} {sc' : Scene} :
    (work >>= f).amid around others sc = (.ok b, sc') ↔ ∃ a sc₁,
      work.amid around others sc = (.ok a, sc₁) ∧ (f a).amid around others sc₁ = (.ok b, sc') := by
  rw [amid_bind]
  rcases work.amid around others sc with ⟨e | a, sc₁⟩ <;> simp

theorem amid_tryCatch (work : Work ε α) (handler : ε → Work ε α) :
    (tryCatch work handler).amid around others sc = match work.amid around others sc with
      | (.ok a, sc') => (.ok a, sc')
      | (.error e, sc') => (handler e).amid around others sc' := by
  have h := congrFun (Program.run_bind (around.amid others) work.run (handled handler)) sc
  refine h.trans ?_
  change (match work.amid around others sc with
    | (answer, sc') => Program.run (around.amid others) (handled handler answer) sc') = _
  rcases work.amid around others sc with ⟨e | a, sc'⟩ <;> rfl

theorem amid_attempt (cause : δ → ε) (step : Step (Except δ α)) :
    (Work.attempt cause step).amid around others sc =
      (((around.amid others _ step sc).1).mapError cause, (around.amid others _ step sc).2) := rfl

theorem amid_ask (step : Step α) : (Work.ask step : Work ε α).amid around others sc =
    (.ok (around.amid others _ step sc).1, (around.amid others _ step sc).2) := rfl

end Work

/-! ## Spreadsheets and the stores they are drawn from -/

section
variable {Q : Store → ByteArray → Prop} {sc₀ sc sc' : Scene}

/-- The spreadsheet comes from a store since an earlier scene. -/
def Offered (Q : Store → ByteArray → Prop) (sc₀ sc : Scene) (xlsx : ByteArray) : Prop :=
  ∃ s ∈ sc.since sc₀, Q s xlsx

/-- All spreadsheets that were converted since an earlier scene come from stores since then. -/
structure Draws (Q : Store → ByteArray → Prop) (sc₀ sc : Scene) : Prop where
  moments : sc₀.moments <+: sc.moments
  drawn : ∃ events, sc.world.past = sc₀.world.past ++ events ∧
    ∀ c ∈ conversions events, Offered Q sc₀ sc c.1

theorem Offered.mono {xlsx : ByteArray} (h : Offered Q sc₀ sc xlsx)
    (hmoments : sc.moments <+: sc'.moments) : Offered Q sc₀ sc' xlsx := by
  obtain ⟨s, hs, hq⟩ := h
  exact ⟨s, Scene.since_subset hmoments hs, hq⟩

theorem past_of_calm {β : Type} (around : Surroundings) {c : Step β} (hc : Step.Calm _ c)
    (w : World) : ∃ events, (around.answer _ c w).2.past = w.past ++ events ∧
      conversions events = [] := by
  cases c with
  | store action => exact ⟨[], (List.append_nil _).symm, rfl⟩
  | convert => exact hc.elim
  | merge | upload | now | today => exact ⟨_, rfl, rfl⟩

theorem leads_amid {β : Type} {around : Surroundings} {others : Schedule} {c : Step β}
    {events : List Event} (h : (around.answer _ c (sc.meanwhile others).world).2.past =
      (sc.meanwhile others).world.past ++ events) :
    sc.Leads events (around.amid others _ c sc).2 where
  moments := (sc.leads_meanwhile others).moments.trans (List.prefix_append _ _)
  past := h.trans (congrArg (· ++ events) ((sc.leads_meanwhile others).past.trans
    (List.append_nil _)))

namespace Draws

theorem refl (Q : Store → ByteArray → Prop) (sc : Scene) : Draws Q sc sc :=
  ⟨List.prefix_refl _, [], (List.append_nil _).symm, by simp [conversions]⟩

theorem leads {events : List Event} (h : Draws Q sc₀ sc) (hl : sc.Leads events sc')
    (hevents : ∀ c ∈ conversions events, Offered Q sc₀ sc' c.1) : Draws Q sc₀ sc' := by
  obtain ⟨before, hpast, hdrawn⟩ := h.drawn
  refine ⟨h.moments.trans hl.moments, before ++ events, ?_, ?_⟩
  · rw [hl.past, hpast, List.append_assoc]
  · intro c hc
    rw [conversions_append, List.mem_append] at hc
    exact hc.elim (fun hc => (hdrawn c hc).mono hl.moments) (hevents c)

variable {ε δ α β : Type} {around : Surroundings} {others : Schedule}

/-- A step that is no conversion keeps to the stores. -/
theorem calm (h : Draws Q sc₀ sc) {c : Step β} (hc : Step.Calm _ c) :
    Draws Q sc₀ (around.amid others _ c sc).2 := by
  obtain ⟨events, hpast, hnone⟩ := past_of_calm around hc (sc.meanwhile others).world
  exact h.leads (leads_amid hpast) (by simp [hnone])

/-- So does the conversion of an offered spreadsheet. -/
theorem convert (h : Draws Q sc₀ sc) {xlsx : ByteArray} (hx : Offered Q sc₀ sc xlsx)
    (name : String) (timeout : Nat) :
    Draws Q sc₀ (around.amid others _ (.convert xlsx name timeout) sc).2 := by
  have hleads : sc.Leads _ (around.amid others _ (.convert xlsx name timeout) sc).2 :=
    leads_amid rfl
  refine h.leads hleads fun c hc => ?_
  obtain rfl := List.mem_singleton.1 hc
  exact hx.mono hleads.moments

/-- So does work without conversions. -/
theorem each (h : Draws Q sc₀ sc) {work : Work ε α} (hw : work.Each Step.Calm) :
    Draws Q sc₀ (work.amid around others sc).2 := by
  unfold Work.amid
  unfold Work.Each at hw
  generalize ExceptT.run work = p at hw
  induction p generalizing sc with
  | done a => exact h
  | call c next ih => exact ih _ (h.calm hw.1) (hw.2 _)

theorem bind {work : Work ε α} {f : α → Work ε β}
    (h : Draws Q sc₀ (work.amid around others sc).2)
    (hf : ∀ a sc', work.amid around others sc = (.ok a, sc') → Draws Q sc₀ sc' →
      Draws Q sc₀ ((f a).amid around others sc').2) :
    Draws Q sc₀ ((work >>= f).amid around others sc).2 := by
  rw [Work.amid_bind]
  rcases hrun : work.amid around others sc with ⟨e | a, sc'⟩ <;> rw [hrun] at h
  · exact h
  · exact hf a sc' hrun h

theorem tryCatch {work : Work ε α} {handler : ε → Work ε α}
    (h : Draws Q sc₀ (work.amid around others sc).2)
    (hh : ∀ e, (handler e).Each Step.Calm) :
    Draws Q sc₀ ((MonadExcept.tryCatch work handler).amid around others sc).2 := by
  rw [Work.amid_tryCatch]
  rcases hrun : work.amid around others sc with ⟨e | a, sc'⟩ <;> rw [hrun] at h
  · exact h.each (hh e)
  · exact h

end Draws
end

/-- The stores there have been stay so. -/
theorem Work.Each.moments {ε α : Type} {around : Surroundings} {others : Schedule}
    {work : Work ε α} {sc sc' : Scene} {result : Except ε α} (h : work.Each Step.Calm)
    (hrun : work.amid around others sc = (result, sc')) : sc.moments <+: sc'.moments := by
  have hdraws := ((Draws.refl (fun _ _ => False) sc).each h : Draws _ sc
    (work.amid around others sc).2)
  rw [hrun] at hdraws
  exact hdraws.moments

/-! ## Jobs amid changes -/

/-- The spreadsheet is one of these jobs, filled by the rules of a store. -/
def Fills (setting : Setting) (p : Plan) (js : List Job) (s : Store) (xlsx : ByteArray) : Prop :=
  ∃ j ∈ js, ∃ day, rendered setting s p j day = .ok xlsx

variable {around : Surroundings} {others : Schedule} {setting : Setting} {p : Plan}
  {js : List Job} {sc₀ sc sc' : Scene}

theorem calm_renderJob (setting : Setting) (p : Plan) (j : Job) :
    (renderJob setting p j).Each Step.Calm :=
  (Work.Each.lift _).bind fun _ => (Work.Each.attempt trivial).bind fun _ =>
    (Work.Each.ask trivial).bind fun _ => .lift _

theorem amid_renderJob (j : Job) :
    (renderJob setting p j).amid around others sc = match templateOf setting j.document with
      | .error e => (.error e, sc)
      | .ok _ =>
        let dated := around.amid others _ .today (sc.looked others)
        (rendered setting (sc.looked others).world.store p j dated.1, dated.2) := by
  unfold renderJob rendered
  simp only [Work.amid_bind, Work.amid_lift]
  cases templateOf setting j.document with
  | error e => rfl
  | ok template =>
    have hrules : (Work.attempt PackError.store (.store (do
        return (← get).rulesOf j.document.id))).amid around others sc =
        (.ok ((sc.looked others).world.store.rulesOf j.document.id), sc.looked others) := rfl
    simp only [hrules, Work.amid_ask]
    rfl

/-- A job reads the rules of its document from a store that comes after all before. -/
theorem offered_renderJob {j : Job} {xlsx : ByteArray} (hj : j ∈ js)
    (h : sc₀.moments <+: sc.moments)
    (hrun : (renderJob setting p j).amid around others sc = (.ok xlsx, sc')) :
    Offered (Fills setting p js) sc₀ sc' xlsx := by
  rw [amid_renderJob] at hrun
  cases ht : templateOf setting j.document with
  | error e => rw [ht] at hrun; cases hrun
  | ok template =>
    simp only [ht, Prod.mk.injEq] at hrun
    obtain ⟨hrendered, rfl⟩ := hrun
    have hmeanwhile := h.trans (sc.leads_meanwhile others).moments
    have hread : Offered (Fills setting p js) sc₀ (sc.looked others) xlsx :=
      ⟨_, Scene.mem_since hmeanwhile rfl, j, hj, _, hrendered⟩
    exact hread.mono (leads_amid (c := .today) rfl).moments

theorem draws_convertJob {j : Job} (hj : j ∈ js) (artifact : Id)
    (h : Draws (Fills setting p js) sc₀ sc) :
    Draws (Fills setting p js) sc₀ ((convertJob setting p artifact j).amid around others sc).2 := by
  refine .bind (h.each (calm_renderJob setting p j)) fun xlsx sc' hrun h' => ?_
  have hx := offered_renderJob hj h.moments hrun
  refine .bind (h'.convert hx (j.stem ++ ".xlsx") setting.timeout) fun pdf sc'' _ h'' => ?_
  exact h''.each ((Work.Each.attempt trivial).bind fun _ => .pure _)

/-- The conversions of jobs are of spreadsheets filled by the rules of later stores. -/
theorem draws_convertJobs (artifact : Id) {part : List Job} (hpart : part ⊆ js)
    (h : Draws (Fills setting p js) sc₀ sc) :
    Draws (Fills setting p js) sc₀
      ((convertJobs setting p artifact part).amid around others sc).2 := by
  induction part generalizing sc with
  | nil => exact h
  | cons j part ih =>
    obtain ⟨hj, hpart⟩ := List.cons_subset.1 hpart
    refine .bind (draws_convertJob hj artifact h) fun _ sc' _ h' => ?_
    exact .bind (ih hpart h') fun _ sc'' _ h'' => h''

theorem draws_carryOut (request : Request) (h : Draws (Fills setting p js) sc₀ sc) :
    Draws (Fills setting p js) sc₀
      ((carryOut setting request p js).amid around others sc).2 := by
  refine .bind (h.each (.ask trivial)) fun now sc₁ _ h₁ => ?_
  refine .bind (h₁.each (.attempt trivial)) fun artifact sc₂ _ h₂ => ?_
  refine .tryCatch ?_ fun e => (Work.Each.ask trivial).bind fun _ => .throw _
  refine .bind (draws_convertJobs artifact.id (List.Subset.refl js) h₂) fun pdfs sc₃ _ h₃ => ?_
  exact h₃.each ((mergeAll_each (fun _ => trivial) _ pdfs).bind fun _ =>
    (Work.Each.ask trivial).bind fun _ => .attempt trivial)

theorem calm_renderJobs (setting : Setting) (p : Plan) (js : List Job) :
    (renderJobs setting p js).Each Step.Calm := by
  induction js with
  | nil => exact .pure _
  | cons j js ih => exact (calm_renderJob setting p j).bind fun _ => ih.bind fun _ => .pure _

/-- Jobs that are only rendered are filled by the rules of later stores as well. -/
theorem offered_renderJobs {part : List Job} {rs : List Rendered} (hpart : part ⊆ js)
    (h : sc₀.moments <+: sc.moments)
    (hrun : (renderJobs setting p part).amid around others sc = (.ok rs, sc')) :
    ∀ r ∈ rs, Offered (Fills setting p js) sc₀ sc' r.bytes := by
  induction part generalizing sc rs sc' with
  | nil =>
    cases hrun
    simp
  | cons j part ih =>
    obtain ⟨hj, hpart⟩ := List.cons_subset.1 hpart
    obtain ⟨xlsx, sc₁, hjob, hrun⟩ := Work.amid_bind_eq_ok.1 hrun
    obtain ⟨rs', sc₂, hjobs, hrun⟩ := Work.amid_bind_eq_ok.1 hrun
    cases hrun
    have h₁ := (calm_renderJob setting p j).moments hjob
    have h₂ := (calm_renderJobs setting p part).moments hjobs
    have hx := (offered_renderJob hj h hjob).mono h₂
    exact List.forall_mem_cons.2 ⟨hx, ih hpart (h.trans h₁) hjobs⟩

/-! ## Planning amid changes -/

theorem amid_plan (setting : Setting) (request : Request) (sc : Scene) :
    (plan setting request).amid around others sc =
      (planOf setting request (sc.looked others).world.store, sc.looked others) := by
  rw [plan_eq]
  simp only [Work.amid_bind, Work.amid_attempt, Surroundings.amid, Surroundings.answer,
    run_readPack]
  unfold planOf Scene.looked
  rcases (sc.meanwhile others).world.store.activePack? request.pack with e | - | pack
  · rfl
  · rfl
  · exact Work.amid_lift _

/-- A run is planned from one store, which it goes on from. -/
theorem amid_planning {α : Type} (setting : Setting) (request : Request)
    (f : Plan → List Job → Work PackError α) (sc : Scene) :
    (plan setting request >>= fun p => liftM (jobs setting.provider p request.shipment) >>=
      f p : Work PackError α).amid around others sc =
      match planned setting request (sc.looked others).world.store with
      | .ok (p, js) => (f p js).amid around others (sc.looked others)
      | .error e => (.error e, sc.looked others) := by
  simp only [Work.amid_bind, amid_plan, Work.amid_lift, planned]
  cases planOf setting request (sc.looked others).world.store with
  | error e => rfl
  | ok p =>
    dsimp only
    cases h : jobs setting.provider p request.shipment with
    | error e => simp [h, bind, Except.bind]
    | ok js => simp [h, bind, Except.bind, pure, Except.pure]

/-! ## What a spreadsheet is made of -/

/-- The job with another template of its document. -/
def Job.given (j : Job) (template : Option TemplateFile) : Job :=
  { j with document := { j.document with template } }

/-- The spreadsheet has the template that the document of the job has in one store, filled by the
    rules that it has in another. -/
def Filling (setting : Setting) (p : Plan) (j : Job) (s s' : Store) (xlsx : ByteArray) : Prop :=
  ∃ d day, s.document? j.document.id = some d ∧
    rendered setting s' p (j.given d.template) day = .ok xlsx

/-- The spreadsheet has a template and rules that the document of the job had together. -/
def Whole (setting : Setting) (p : Plan) (j : Job) (moments : List Store) (xlsx : ByteArray) :
    Prop :=
  ∃ s ∈ moments, Filling setting p j s s xlsx

/-- What a spreadsheet is made of: the template that was live when its run was planned, and rules
    that were live later.  They were live together if one of them was not replaced meanwhile. -/
def Sourced (setting : Setting) (request : Request) (moments : List Store) (xlsx : ByteArray) :
    Prop :=
  ∃ s s' p js j, [s, s'].Sublist moments ∧ planned setting request s = .ok (p, js) ∧ j ∈ js ∧
    Filling setting p j s s' xlsx ∧
    (((s'.document? j.document.id).map (·.template) =
        (s.document? j.document.id).map (·.template) ∨
      s'.rulesOf j.document.id = s.rulesOf j.document.id) → Whole setting p j moments xlsx)

theorem Scene.sublist_of_since {s : Store} (h : sc₀.moments <+: sc.moments)
    (hs : s ∈ sc.since sc₀) : [sc₀.world.store, s].Sublist sc.moments := by
  rw [← List.prefix_iff_eq_append.1 h]
  exact (List.singleton_sublist.2 List.mem_concat_self).append (List.singleton_sublist.2 hs)

theorem sourced_of_offered {request : Request} {xlsx : ByteArray}
    (hs : sc₀.world.store.Sound)
    (hplanned : planned setting request sc₀.world.store = .ok (p, js))
    (h : sc₀.moments <+: sc.moments) (hx : Offered (Fills setting p js) sc₀ sc xlsx) :
    Sourced setting request sc.moments xlsx := by
  obtain ⟨s', hs', j, hj, day, hrendered⟩ := hx
  have hd := document?_of_planned hs hplanned hj
  have horder := Scene.sublist_of_since h hs'
  refine ⟨_, s', p, js, j, horder, hplanned, hj, ⟨_, day, hd, hrendered⟩, ?_⟩
  rintro (htemplate | hrules)
  · rw [hd, Option.map_some, Option.map_eq_some_iff] at htemplate
    obtain ⟨d', hd', htemplate⟩ := htemplate
    refine ⟨s', horder.subset (by simp), d', day, hd', ?_⟩
    rw [htemplate]
    exact hrendered
  · refine ⟨_, horder.subset (by simp), _, day, hd, ?_⟩
    rw [← hrendered]
    simp only [rendered, Job.given, hrules]

theorem sourced_generate (setting : Setting) (request : Request)
    (hs : (sc.looked others).world.store.Sound) :
    ∃ events, ((generate setting request).amid around others sc).2.world.past =
        sc.world.past ++ events ∧ ∀ c ∈ conversions events,
          Sourced setting request ((generate setting request).amid around others sc).2.moments
            c.1 := by
  rw [generate_eq, amid_planning, ← sc.past_looked others]
  cases h : planned setting request (sc.looked others).world.store with
  | error e => exact ⟨[], (List.append_nil _).symm, by simp [conversions]⟩
  | ok plan =>
    obtain ⟨p, js⟩ := plan
    have hdraws : Draws (Fills setting p js) (sc.looked others)
        ((carryOut setting request p js).amid around others (sc.looked others)).2 :=
      draws_carryOut request (.refl _ _)
    obtain ⟨events, hpast, hdrawn⟩ := hdraws.drawn
    exact ⟨events, hpast, fun c hc => sourced_of_offered hs h hdraws.moments (hdrawn c hc)⟩

theorem sourced_renderPack (setting : Setting) (request : Request)
    (hs : (sc.looked others).world.store.Sound) {rs : List Rendered}
    (hrun : (renderPack setting request).amid around others sc = (.ok rs, sc')) :
    ∀ r ∈ rs, Sourced setting request sc'.moments r.bytes := by
  rw [renderPack, amid_planning] at hrun
  cases h : planned setting request (sc.looked others).world.store with
  | error e => rw [h] at hrun; cases hrun
  | ok plan =>
    obtain ⟨p, js⟩ := plan
    rw [h] at hrun
    have hmoments := (calm_renderJobs setting p js).moments hrun
    intro r hr
    exact sourced_of_offered hs h hmoments
      (offered_renderJobs (List.Subset.refl js) (List.prefix_refl _) hrun r hr)

/-- **Every spreadsheet has the template of its plan and rules of a later moment.**  Whatever
    changes others make between the steps of a run, both were live together unless both were
    replaced between the planning and the reading of the rules. -/
theorem spreadsheets_sourced (ops : List Operation) (around : Surroundings) (others : Schedule)
    (setting : Setting) (request : Request) :
    let sc := Scene.start (World.start.runAll ops)
    let generated := (generate setting request).amid around others sc
    let served := (renderPack setting request).amid around others sc
    (∃ events, generated.2.world.past = sc.world.past ++ events ∧
      ∀ c ∈ conversions events, Sourced setting request generated.2.moments c.1) ∧
    ∀ rs, served.1 = .ok rs → ∀ r ∈ rs, Sourced setting request served.2.moments r.bytes := by
  intro sc generated served
  have hs : (sc.looked others).world.store.Sound :=
    (Scene.recorded_meanwhile (recorded_runAll ops) others).sound
  exact ⟨sourced_generate setting request hs, fun rs hrs =>
    sourced_renderPack setting request hs (Prod.ext hrs rfl)⟩

/-! ## A spreadsheet of two versions -/

/-- A template in plain data, with these sheets. -/
def sampleTemplate (sheets : String) : TemplateFile :=
  ⟨"note.xlsx", ("\x7b\"sheets\":[" ++ sheets ++ "]\x7d").toUTF8⟩

/-- The template of the first version. -/
def firstTemplate : TemplateFile := sampleTemplate "\x7b\"name\":\"S\"\x7d"

/-- The template of the second version. -/
def secondTemplate : TemplateFile :=
  sampleTemplate "\x7b\"name\":\"S\"\x7d,\x7b\"name\":\"U\"\x7d"

/-- The rule of the first version; the second one has none. -/
def referenceRule : Mapping.Rule := ⟨"S", "A1", "shipment.reference", "", false, 1⟩

/-- The rules of the first version. -/
def firstRules : List Mapping.Rule := [referenceRule]

/-- The first version of the sample document. -/
def firstEdit : History.Change := .edit 1 ⟨some (some firstTemplate), some firstRules⟩

/-- The second version, which others save. -/
def secondEdit : Landing :=
  ⟨.edit 1 ⟨some (some secondTemplate), some []⟩, sampleSignature, ""⟩

/-- The world of the sample catalog with the first version. -/
def firstWorld : World :=
  World.start.runAll [sampleImport, .changing firstEdit sampleSignature ""]

/-- The second version lands right after the planning. -/
def afterPlanning : Schedule := fun moments =>
  if moments.length = 2 then [secondEdit] else []

/-- The sample document with a template. -/
def sampleVersioned (template : TemplateFile) : Document :=
  { sampleDocument with template := some template }

/-- The job of the sample document, as it is planned in the first version. -/
def sampleJob : Job := ⟨sampleVersioned firstTemplate, none, ""⟩

/-- The plan of the sample pack in the first version. -/
def samplePlan : Plan :=
  ⟨⟨1, "A", "A", true, .a4, none⟩, [sampleVersioned firstTemplate], none, none⟩

theorem sample_live :
    planned sampleSetting (.ofPack "A") firstWorld.store = .ok (samplePlan, [sampleJob]) ∧
    (firstWorld.store.document? 1 = some (sampleVersioned firstTemplate) ∧
      firstWorld.store.rulesOf 1 = firstRules) ∧
    (secondEdit.on firstWorld.store).document? 1 = some (sampleVersioned secondTemplate) ∧
      (secondEdit.on firstWorld.store).rulesOf 1 = [] := by
  cbv

section
open Waybill.Sheet Waybill.Mapping

/-- The workbook of the first template. -/
def oneSheet : Memory.Book := ⟨[⟨"S", [], []⟩]⟩

/-- The same filled by the rule of the first version. -/
def filledSheet : Memory.Book := ⟨[⟨"S", [("A1", .text "")], []⟩]⟩

/-- The workbook of the second template. -/
def twoSheets : Memory.Book := ⟨[⟨"S", [], []⟩, ⟨"U", [], []⟩]⟩

theorem read_firstTemplate : Format.memory.read firstTemplate.bytes = .ok oneSheet := by cbv

theorem read_secondTemplate : Format.memory.read secondTemplate.bytes = .ok twoSheets := by cbv

theorem fill_firstRules (d : Document) (day : Calendar.Date) :
    fill firstRules (payloadOf none none d day) oneSheet = (.ok (), filledSheet) := by
  have hvalue : (payloadOf none none d day).resolve referenceRule.source = none := by cbv
  generalize payloadOf none none d day = payload at hvalue
  have hsource : Payload.isRepeating referenceRule.source = false := by cbv
  -- evaluated as a whole, the rule would list the rows of a repeating source first
  have hput : put referenceRule [] ⟨1, 1⟩ none oneSheet = (.ok (), filledSheet) := by cbv
  have hat : applyRule payload referenceRule ⟨oneSheet, []⟩ =
      ((applyAt referenceRule payload [] ⟨1, 1⟩ oneSheet).1,
        ⟨(applyAt referenceRule payload [] ⟨1, 1⟩ oneSheet).2, [("S", [])]⟩) := rfl
  have hrule : applyRule payload referenceRule ⟨oneSheet, []⟩ =
      (.ok (), ⟨filledSheet, [("S", [])]⟩) := by
    rw [hat, applyAt, hsource, hvalue, if_neg Bool.false_ne_true, hput]
  simp only [fill, firstRules, eachOf, hrule]

end

theorem filled_eq_ok {template : ByteArray} {rules : List Mapping.Rule}
    {payload : Payload.Value} {book book' : Sheet.Memory.Book}
    (hread : Sheet.Format.memory.read template = .ok book)
    (hfill : Mapping.fill rules payload book = (.ok (), book')) :
    filled .memory template rules payload = .ok book'.toBytes := by
  have hfill' : Mapping.fill rules payload (show Sheet.Format.memory.Book from book) =
      (.ok (), book') := hfill
  simp only [filled, hread, Except.mapError, bind, Except.bind]
  rw [hfill']
  rfl

theorem rendered_sampleJob (s : Store) (t : TemplateFile) (day : Calendar.Date) :
    rendered sampleSetting s samplePlan (sampleJob.given (some t)) day =
      filled .memory t.bytes (s.rulesOf 1) (payloadOf none none (sampleVersioned t) day) := rfl

/-- The run that the second version lands in: it fills the first template by the second rules. -/
theorem amid_afterPlanning {w : World}
    (hplanned : planned sampleSetting (.ofPack "A") w.store = .ok (samplePlan, [sampleJob]))
    (hrules : (secondEdit.on w.store).rulesOf 1 = []) :
    (renderPack sampleSetting (.ofPack "A")).amid sampleSurroundings afterPlanning (.start w) =
      (.ok [⟨sampleJob.stem ++ ".xlsx", oneSheet.toBytes⟩],
        ⟨⟨secondEdit.on w.store, w.past ++ [.today .epoch]⟩,
          [w.store, w.store, secondEdit.on w.store, secondEdit.on w.store]⟩) := by
  have hrendered : rendered sampleSetting (secondEdit.on w.store) samplePlan sampleJob .epoch =
      .ok (oneSheet.toBytes) := by
    refine (rendered_sampleJob _ firstTemplate .epoch).trans ?_
    rw [hrules]
    exact filled_eq_ok read_firstTemplate rfl
  have hlooked : (Scene.start w).looked afterPlanning = ⟨w, [w.store]⟩ := rfl
  have hjob : (renderJob sampleSetting samplePlan sampleJob).amid sampleSurroundings
      afterPlanning ⟨w, [w.store]⟩ = (.ok (oneSheet.toBytes),
        ⟨⟨secondEdit.on w.store, w.past ++ [.today .epoch]⟩,
          [w.store, w.store, secondEdit.on w.store, secondEdit.on w.store]⟩) := by
    rw [amid_renderJob, ← hrendered]
    rfl
  rw [renderPack, amid_planning, hlooked, hplanned]
  dsimp only
  rw [renderJobs, Work.amid_bind, hjob]
  rfl

/-- When an edit lands between the planning and the reading of the rules, the spreadsheet has the
    template of one version and the rules of another, which were live together at no moment. -/
theorem torn_spreadsheet :
    let served := (renderPack sampleSetting (.ofPack "A")).amid sampleSurroundings afterPlanning
      (.start firstWorld)
    ∃ r, served.1 = .ok [r] ∧
      planned sampleSetting (.ofPack "A") firstWorld.store = .ok (samplePlan, [sampleJob]) ∧
      ¬ Whole sampleSetting samplePlan sampleJob served.2.moments r.bytes := by
  obtain ⟨hplanned, ⟨hd, hr⟩, hd', hr'⟩ := sample_live
  generalize firstWorld = w at *
  rw [amid_afterPlanning hplanned hr']
  refine ⟨_, rfl, hplanned, ?_⟩
  rintro ⟨s, hs, d, day, hdoc, hx⟩
  have hmoment : s = w.store ∨ s = secondEdit.on w.store := by
    simpa [Scene.moments] using hs
  rcases hmoment with rfl | rfl
  · obtain rfl := Option.some.inj (hd.symm.trans hdoc)
    replace hx := (rendered_sampleJob _ firstTemplate day).symm.trans hx
    rw [hr, filled_eq_ok read_firstTemplate (fill_firstRules _ day)] at hx
    exact absurd (Except.ok.inj hx) (by decide +kernel)
  · obtain rfl := Option.some.inj (hd'.symm.trans hdoc)
    replace hx := (rendered_sampleJob _ secondTemplate day).symm.trans hx
    have hfill : Mapping.fill [] (payloadOf none none (sampleVersioned secondTemplate) day)
        twoSheets = (.ok (), twoSheets) := rfl
    rw [hr', filled_eq_ok read_secondTemplate hfill] at hx
    exact absurd (Except.ok.inj hx) (by decide +kernel)

end Waybill.Generation
