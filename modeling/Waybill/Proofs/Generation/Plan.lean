/-
  Planning in a world.

  Planning only reads the store, so what it comes to is a function of the store.

  * `planned` is the plan of a request with its jobs, or the error that ends the planning.

  Statements: `plan_eq` (planning looks at the store once), `on_planning` (a run that plans goes on
  from there with the world as it was), `planned_jobs_ne_nil` (there is always something to
  render), `document?_of_planned` (the documents that are planned are those of the store).
-/
import Waybill.Proofs.Catalog.Lookup
import Waybill.Proofs.Generation.Within

namespace Waybill.Generation

open Waybill.Payload Waybill.Store

/-! ## What planning comes to -/

/-- The plan of a request, as the store has it. -/
def planOf (setting : Setting) (request : Request) (s : Store) : Except PackError Plan :=
  match s.activePack? request.pack with
  | .error e => .error (.store e)
  | .ok none => .error (.unknownPack request.pack)
  | .ok (some pack) =>
    let documents := s.enabledDocuments pack.id (wantedVariant request)
    if documents.isEmpty then .error (.noDocuments pack.code)
    else do
      let shipment ← found setting.provider.shipment .unknownShipment request.shipment
      let carton ← found setting.provider.carton .unknownCarton request.carton
      return ⟨pack, documents, shipment, carton⟩

/-- The plan of a request and its jobs. -/
def planned (setting : Setting) (request : Request) (s : Store) :
    Except PackError (Plan × List Job) := do
  let p ← planOf setting request s
  let js ← jobs setting.provider p request.shipment
  return (p, js)

theorem planned_eq_ok {setting : Setting} {request : Request} {s : Store} {p : Plan}
    {js : List Job} : planned setting request s = .ok (p, js) ↔
      planOf setting request s = .ok p ∧ jobs setting.provider p request.shipment = .ok js := by
  simp only [planned, except_bind_eq_ok]
  constructor
  · rintro ⟨_, hp, _, hjs, h⟩
    cases h
    exact ⟨hp, hjs⟩
  · rintro ⟨hp, hjs⟩
    exact ⟨p, hp, js, hjs, rfl⟩

/-! ## There is something to render -/

/-- Where the parts of a plan come from. -/
theorem of_planOf {setting : Setting} {request : Request} {s : Store} {p : Plan}
    (h : planOf setting request s = .ok p) :
    s.activePack? request.pack = .ok (some p.pack) ∧
      (p.documents = s.enabledDocuments p.pack.id (wantedVariant request) ∧ p.documents ≠ []) ∧
      found setting.provider.shipment .unknownShipment request.shipment = .ok p.shipment ∧
      found setting.provider.carton .unknownCarton request.carton = .ok p.carton := by
  unfold planOf at h
  split at h
  · cases h
  · cases h
  · next pack hpack =>
    dsimp only at h
    split at h
    · cases h
    · next hempty =>
      simp only [except_bind_eq_ok] at h
      obtain ⟨shipment, hshipment, carton, hcarton, h⟩ := h
      cases h
      exact ⟨hpack, ⟨rfl, by simpa using hempty⟩, hshipment, hcarton⟩

/-- The documents of a plan are the enabled ones of its pack, of which there are some. -/
theorem documents_of_planOf {setting : Setting} {request : Request} {s : Store} {p : Plan}
    (h : planOf setting request s = .ok p) :
    p.documents = s.enabledDocuments p.pack.id (wantedVariant request) ∧ p.documents ≠ [] :=
  (of_planOf h).2.1

theorem targets_ne_nil {provider : Provider} {d : Document} {shipment : Option String}
    {cartons : List Value} (h : targets provider d shipment = .ok (some cartons)) :
    cartons ≠ [] := by
  unfold targets at h
  split at h
  · cases h
  · split at h
    · cases h
    · next reference =>
      dsimp only at h
      split at h
      · cases h
      · next hempty =>
        obtain ⟨found, hfound, h⟩ := except_bind_eq_ok.1 h
        cases h
        rintro rfl
        have := (mapM_eq_ok.1 hfound).length_eq
        exact hempty (by simpa using this)

theorem jobsOf_ne_nil {provider : Provider} {p : Plan} {shipment : Option String} {d : Document}
    {js : List Job} (h : jobsOf provider p shipment d = .ok js) : js ≠ [] := by
  obtain ⟨cartons, hcartons, h⟩ := except_bind_eq_ok.1 h
  cases cartons with
  | none => cases h; simp
  | some cartons =>
    cases h
    simpa using targets_ne_nil hcartons

theorem planned_jobs_ne_nil {setting : Setting} {request : Request} {s : Store} {p : Plan}
    {js : List Job} (h : planned setting request s = .ok (p, js)) : js ≠ [] := by
  obtain ⟨hp, hjs⟩ := planned_eq_ok.1 h
  obtain ⟨jss, hjss, h⟩ := except_bind_eq_ok.1 hjs
  cases h
  obtain ⟨d, ds, hds⟩ := List.exists_cons_of_ne_nil (documents_of_planOf hp).2
  rw [hds, mapM_eq_ok] at hjss
  cases hjss with
  | cons hd _ => simp [jobsOf_ne_nil hd]

/-! ## The documents that are planned -/

theorem document_of_mem_jobsOf {provider : Provider} {p : Plan} {shipment : Option String}
    {d : Document} {js : List Job} (h : jobsOf provider p shipment d = .ok js) {j : Job}
    (hj : j ∈ js) : j.document = d := by
  obtain ⟨cartons, -, h⟩ := except_bind_eq_ok.1 h
  cases cartons with
  | none =>
    cases h
    rw [List.mem_singleton.1 hj]
  | some cartons =>
    cases h
    obtain ⟨c, -, rfl⟩ := List.mem_map.1 hj
    rfl

theorem document_mem_of_mem_jobs {provider : Provider} {p : Plan} {shipment : Option String}
    {js : List Job} (h : jobs provider p shipment = .ok js) {j : Job} (hj : j ∈ js) :
    j.document ∈ p.documents := by
  obtain ⟨jss, hjss, h⟩ := except_bind_eq_ok.1 h
  cases h
  obtain ⟨js, hjs, hj⟩ := List.mem_flatten.1 hj
  obtain ⟨d, hd, hof⟩ := exists_row_of_mapM hjss hjs
  rwa [document_of_mem_jobsOf hof hj]

theorem document?_of_mem_enabledDocuments {s : Store} (hs : s.Sound) {pack : Id}
    {variant : Option String} {d : Document} (h : d ∈ s.enabledDocuments pack variant) :
    s.document? d.id = some d := by
  obtain ⟨row, hrow, -, hread⟩ := mem_packDocuments.1 (List.mem_of_mem_filter h)
  rw [(of_readDocument? hread).1, document?, hs.documents.find?_eq hrow]
  exact hread

/-- The documents that are planned are those of the store. -/
theorem document?_of_planned {setting : Setting} {request : Request} {s : Store} (hs : s.Sound)
    {p : Plan} {js : List Job} (h : planned setting request s = .ok (p, js)) {j : Job}
    (hj : j ∈ js) : s.document? j.document.id = some j.document := by
  obtain ⟨hp, hjs⟩ := planned_eq_ok.1 h
  exact document?_of_mem_enabledDocuments hs
    ((documents_of_planOf hp).1 ▸ document_mem_of_mem_jobs hjs hj)

/-! ## Planning in a world -/

variable {around : Surroundings} {w : World}

theorem run_readPack (code : String) (variant : Option String) (s : Store) :
    s.run (readPack code variant) =
      ((s.activePack? code).map fun pack =>
        pack.map fun pack => (pack, s.enabledDocuments pack.id variant), s) := by
  unfold readPack Store.run
  rw [Action.get_bind, Action.lift_bind]
  rcases s.activePack? code with e | - | pack <;> rfl

/-- The plan that a pack is given with the documents that were found for it. -/
def planWith (setting : Setting) (request : Request) :
    Option (Pack × List Document) → Except PackError Plan
  | none => .error (.unknownPack request.pack)
  | some (pack, documents) =>
    if documents.isEmpty then .error (.noDocuments pack.code)
    else do
      let shipment ← found setting.provider.shipment .unknownShipment request.shipment
      let carton ← found setting.provider.carton .unknownCarton request.carton
      return ⟨pack, documents, shipment, carton⟩

/-- Planning looks at the store once. -/
theorem plan_eq (setting : Setting) (request : Request) : plan setting request =
    Work.attempt .store (.store (readPack request.pack (wantedVariant request))) >>=
      fun found => liftM (planWith setting request found) := by
  refine congrArg (Work.attempt _ _ >>= ·) (funext fun looked => ?_)
  rcases looked with - | ⟨pack, documents⟩
  · rfl
  · dsimp only [planWith]
    split
    · rfl
    · cases found setting.provider.shipment .unknownShipment request.shipment with
      | error e => rfl
      | ok shipment =>
        cases found setting.provider.carton .unknownCarton request.carton <;> rfl

theorem on_plan (setting : Setting) (request : Request) :
    (plan setting request).on around w = (planOf setting request w.store, w) := by
  rw [plan_eq]
  simp only [Work.on_bind, Work.on_attempt, Surroundings.answer, run_readPack]
  unfold planOf
  rcases w.store.activePack? request.pack with e | - | pack
  · rfl
  · rfl
  · exact Work.on_lift _

/-- A run that plans goes on with what is planned, in the same world. -/
theorem on_planning {α : Type} (around : Surroundings) (w : World) (setting : Setting)
    (request : Request) (f : Plan → List Job → Work PackError α) :
    (plan setting request >>= fun p => liftM (jobs setting.provider p request.shipment) >>=
      f p : Work PackError α).on around w =
      match planned setting request w.store with
      | .ok (p, js) => (f p js).on around w
      | .error e => (.error e, w) := by
  simp only [Work.on_bind, on_plan, Work.on_lift, planned]
  cases planOf setting request w.store with
  | error e => rfl
  | ok p =>
    dsimp only
    cases h : jobs setting.provider p request.shipment with
    | error e => simp [h, bind, Except.bind]
    | ok js => simp [h, bind, Except.bind, pure, Except.pure]

end Waybill.Generation
