/-
  What is printed for a request.

  The documents of a plan are the enabled ones of its pack, in the order of their sequence and
  number.  Each has its jobs, one after the other: a label of all cartons has one for each carton
  that its shipment lists, any other document has one.

  * `Asked` says which variants a request is about, `Planned` which documents it plans;
  * `Renders` is a job by what its rules see, `Prints` are the jobs of one document;
  * `Printed` are the jobs of a plan, `Unlisted` is why there are none.

  Statements: `planned_documents` (the documents of a plan), `prints_of_jobsOf` and
  `error_of_jobsOf` (the jobs of one document), `plan_prints` (what a request that plans comes to).
-/
import Waybill.Proofs.Generation.Artifact

namespace Waybill.Generation

open Waybill.Payload Waybill.Store

/-! ## The documents of a plan -/

/-- Whether a request is about documents of a variant: about those of the variant that it names,
    blanks around the name aside, and about all when it names none. -/
def Asked (request : Request) (variant : String) : Prop :=
  ∀ v, request.variant = some v → Text.trim v ≠ "" → variant = Text.trim v

theorem asked_iff {request : Request} {variant : String} : Asked request variant ↔
    ((wantedVariant request).isNone || wantedVariant request == some variant) = true := by
  unfold Asked wantedVariant
  cases request.variant with
  | none => simp
  | some v =>
    by_cases hv : Text.trim v = ""
    · simp [hv]
    · have hkept : (some (Text.trim v)).filter (fun v => !v.isEmpty) = some (Text.trim v) := by
        simp [hv]
      rw [Option.map_some, hkept]
      simpa [hv] using eq_comm

/-- The documents that are planned for a pack: those of the store that are enabled and asked for,
    in the order of their sequence and then of their numbers. -/
structure Planned (request : Request) (s : Store) (pack : Id) (ds : List Document) : Prop where
  mem : ∀ d, d ∈ ds ↔
    s.document? d.id = some d ∧ d.pack = pack ∧ d.enabled = true ∧ Asked request d.variant
  ordered : ds.Pairwise fun a b =>
    a.sequence < b.sequence ∨ a.sequence = b.sequence ∧ a.id < b.id

theorem document?_eq_some {s : Store} (hs : s.Sound) {id : Id} {d : Document} :
    s.document? id = some d ↔
      ∃ row ∈ s.documents.rows, row.id = id ∧ s.readDocument? row = some d := by
  constructor
  · intro h
    obtain ⟨row, hrow, hread⟩ := Option.bind_eq_some_iff.1 h
    have hid : row.id = id := by simpa using List.find?_some hrow
    exact ⟨row, List.mem_of_find?_eq_some hrow, hid, hread⟩
  · rintro ⟨row, hrow, rfl, hread⟩
    rw [document?, hs.documents.find?_eq hrow]
    exact hread

/-- What a document takes over from its row. -/
theorem row_of_readDocument? {s : Store} {row : DocumentRow} {d : Document}
    (h : s.readDocument? row = some d) :
    d.id = row.id ∧ d.pack = row.pack ∧ d.sequence = row.sequence := by
  obtain ⟨p, -, rfl⟩ := Option.map_eq_some_iff.1 h
  exact ⟨rfl, rfl, rfl⟩

theorem pairwise_packDocuments {s : Store} (hs : s.Sound) (pack : Id) :
    (s.packDocuments pack).Pairwise fun a b =>
      a.sequence < b.sequence ∨ a.sequence = b.sequence ∧ a.id < b.id := by
  refine (pairwise_inSequence (hs.documents.ordered.filter _)).filterMap _ ?_
  intro row row' horder d hd d' hd'
  obtain ⟨hid, -, hsequence⟩ := row_of_readDocument? hd
  obtain ⟨hid', -, hsequence'⟩ := row_of_readDocument? hd'
  rwa [hid, hid', hsequence, hsequence']

/-- The enabled documents of a pack are those that a request for it plans. -/
theorem planned_documents {s : Store} (hs : s.Sound) (request : Request) (pack : Id) :
    Planned request s pack (s.enabledDocuments pack (wantedVariant request)) where
  mem d := by
    simp only [enabledDocuments, List.mem_filter, mem_packDocuments, Bool.and_eq_true,
      ← asked_iff, document?_eq_some hs]
    constructor
    · rintro ⟨⟨row, hrow, rfl, hread⟩, henabled, hasked⟩
      obtain ⟨hid, hpack, -⟩ := row_of_readDocument? hread
      exact ⟨⟨row, hrow, hid.symm, hread⟩, hpack, henabled, hasked⟩
    · rintro ⟨⟨row, hrow, -, hread⟩, rfl, henabled, hasked⟩
      exact ⟨⟨row, hrow, (row_of_readDocument? hread).2.1.symm, hread⟩, henabled, hasked⟩
  ordered := (pairwise_packDocuments hs pack).filter _

/-! ## The jobs of a document -/

/-- A job by what the rules of its document see: the document, the carton, and the suffix. -/
structure Renders (p : Plan) (d : Document) (carton : Value) (suffix : String) (j : Job) :
    Prop where
  document : j.document = d
  carton : ∀ day, (payloadOf p.shipment j.carton j.document day).field? "carton" = some carton
  suffix : j.suffix = suffix

theorem renders (p : Plan) (d : Document) (carton : Option Value) (suffix : String) :
    Renders p d (carton.getD .empty) suffix ⟨d, carton, suffix⟩ :=
  ⟨rfl, fun _ => by simp [payloadOf, Value.ofFields, Json.byName, Value.field?,
    Json.find?_insertByName], rfl⟩

/-- The cartons that a document is printed for one by one: those that the shipment lists, for a
    label of all cartons. -/
structure Lists (provider : Provider) (request : Request) (d : Document) (codes : List String) :
    Prop where
  type : d.type = destinationLabel
  variant : d.variant = allLabels
  shipment : ∃ reference, request.shipment = some reference ∧ provider.cartonCodes reference = codes
  codes : codes ≠ []

/-- The suffix of a job: its place, counted from one, unless there is no other. -/
def suffixAt (count place : Nat) : String :=
  if count = 1 then "" else "-" ++ toString (place + 1)

theorem Lists.eq {provider : Provider} {request : Request} {d : Document}
    {codes codes' : List String} (h : Lists provider request d codes)
    (h' : Lists provider request d codes') : codes = codes' := by
  obtain ⟨reference, hreference, rfl⟩ := h.shipment
  obtain ⟨reference', hreference', rfl⟩ := h'.shipment
  obtain rfl : reference = reference' := Option.some.inj (hreference.symm.trans hreference')
  rfl

/-- The jobs of a document. -/
inductive Prints (provider : Provider) (request : Request) (p : Plan) (d : Document) :
    List Job → Prop
  /-- One for each carton, in the order of their codes. -/
  | labels {codes : List String} {js : List Job} (lists : Lists provider request d codes)
    (each : List.Forall₂ (fun code j => ∃ carton, provider.carton code.1 = some carton ∧
      Renders p d carton (suffixAt codes.length code.2) j) codes.zipIdx js) :
    Prints provider request p d js
  /-- One for the carton of the request. -/
  | single {j : Job} (lists : ∀ codes, ¬ Lists provider request d codes)
    (job : Renders p d ((request.carton.bind provider.carton).getD .empty) "" j) :
    Prints provider request p d [j]

theorem Prints.ne_nil {provider : Provider} {request : Request} {p : Plan} {d : Document}
    {js : List Job} (h : Prints provider request p d js) : js ≠ [] := by
  cases h with
  | labels lists each =>
    rintro rfl
    exact lists.codes (by simpa using each.length_eq)
  | single => simp

theorem Prints.document {provider : Provider} {request : Request} {p : Plan} {d : Document}
    {js : List Job} (h : Prints provider request p d js) {j : Job} (hj : j ∈ js) :
    j.document = d := by
  cases h with
  | labels _ each =>
    obtain ⟨i, hi, rfl⟩ := List.getElem_of_mem hj
    obtain ⟨_, _, job⟩ := each.get (by rwa [each.length_eq]) hi
    exact job.document
  | single _ job => exact List.mem_singleton.1 hj ▸ job.document

theorem forall₂_zipIdx {α β : Type} {R : α → β → Prop} {as : List α} {bs : List β}
    (h : List.Forall₂ R as bs) (k : Nat) :
    List.Forall₂ (fun a b => R a.1 b.1 ∧ a.2 = b.2) (as.zipIdx k) (bs.zipIdx k) := by
  induction h generalizing k with
  | nil => exact .nil
  | cons hab _ ih => exact .cons ⟨hab, rfl⟩ (ih (k + 1))

section
variable {provider : Provider} {request : Request} {d : Document}

/-- A document is printed for cartons one by one, or it has a single job. -/
theorem targets_cases (provider : Provider) (request : Request) (d : Document) :
    (∃ codes, Lists provider request d codes ∧
      targets provider d request.shipment = some <$> codes.mapM fun code =>
        match provider.carton code with
        | some carton => Except.ok carton
        | none => Except.error (PackError.unknownCarton code)) ∨
    (∀ codes, ¬ Lists provider request d codes) ∧
      targets provider d request.shipment = .ok none := by
  unfold targets
  by_cases hlabel : d.type ≠ destinationLabel ∨ d.variant ≠ allLabels
  · rw [if_pos hlabel]
    exact Or.inr ⟨fun codes h => hlabel.elim (absurd h.type) (absurd h.variant), rfl⟩
  rw [if_neg hlabel]
  obtain ⟨htype, hvariant⟩ := by simpa using hlabel
  cases hshipment : request.shipment with
  | none =>
    refine Or.inr ⟨fun codes h => ?_, rfl⟩
    obtain ⟨_, hreference, -⟩ := h.shipment
    cases hshipment.symm.trans hreference
  | some reference =>
    dsimp only
    by_cases hcodes : provider.cartonCodes reference = []
    · refine Or.inr ⟨fun codes h => ?_, by simp [hcodes]⟩
      obtain ⟨_, hreference, rfl⟩ := h.shipment
      cases hshipment.symm.trans hreference
      exact h.codes hcodes
    · refine Or.inl ⟨_, ⟨htype, hvariant, ⟨reference, hshipment, rfl⟩, hcodes⟩, ?_⟩
      rw [if_neg (by simpa using hcodes)]
      exact (map_eq_pure_bind ..).symm

/-- The jobs of a document, when they can be listed. -/
theorem prints_of_jobsOf {p : Plan} (hp : p.carton = request.carton.bind provider.carton)
    {js : List Job} (h : jobsOf provider p request.shipment d = .ok js) :
    Prints provider request p d js := by
  obtain ⟨cartons, hcartons, h⟩ := except_bind_eq_ok.1 h
  rcases targets_cases provider request d with ⟨codes, lists, htargets⟩ | ⟨lists, htargets⟩
  · rw [htargets, map_eq_pure_bind] at hcartons
    obtain ⟨found, hfound, hcartons⟩ := except_bind_eq_ok.1 hcartons
    cases hcartons
    cases h
    rw [mapM_eq_ok] at hfound
    refine .labels lists ?_
    rw [List.forall₂_map_right_iff]
    refine (forall₂_zipIdx hfound 0).imp ?_
    rintro ⟨code, i⟩ ⟨carton, _⟩ ⟨hcarton, rfl⟩
    have hcount : suffixAt codes.length i =
        if found.length > 1 then "-" ++ toString (i + 1) else "" := by
      have hpos := List.length_pos_iff.2 lists.codes
      rw [suffixAt, hfound.length_eq]
      rw [hfound.length_eq] at hpos
      split <;> split <;> first | rfl | omega
    refine ⟨carton, ?_, hcount ▸ renders p d (some carton) _⟩
    dsimp only at hcarton ⊢
    split at hcarton
    · next hknown => rw [hknown, Except.ok.inj hcarton]
    · cases hcarton
  · rw [htargets] at hcartons
    cases hcartons
    cases h
    exact .single lists (hp ▸ renders p d p.carton "")

/-- The jobs of a document cannot be listed when a carton of its shipment is unknown. -/
theorem error_of_jobsOf {p : Plan} {e : PackError}
    (h : jobsOf provider p request.shipment d = .error e) :
    ∃ codes, Lists provider request d codes ∧
      ∃ code ∈ codes, provider.carton code = none ∧ e = .unknownCarton code := by
  rcases targets_cases provider request d with ⟨codes, lists, htargets⟩ | ⟨-, htargets⟩
  · refine ⟨codes, lists, ?_⟩
    unfold jobsOf at h
    rw [htargets] at h
    cases hfound : codes.mapM fun code =>
        match provider.carton code with
        | some carton => Except.ok carton
        | none => Except.error (PackError.unknownCarton code) with
    | error e' =>
      rw [hfound] at h
      cases h
      obtain ⟨code, hcode, herror⟩ := exists_error_of_mapM hfound
      refine ⟨code, hcode, ?_⟩
      split at herror
      · cases herror
      · next hunknown => exact ⟨hunknown, (Except.error.inj herror).symm⟩
    | ok found =>
      rw [hfound] at h
      cases h
  · unfold jobsOf at h
    rw [htargets] at h
    cases h

end

/-! ## The jobs of a plan -/

/-- The jobs of a plan: its pack is the active one of the code, its documents are those that are
    enabled and asked for, and each has its jobs, in the order of the documents. -/
structure Printed (provider : Provider) (request : Request) (s : Store) (p : Plan)
    (js : List Job) : Prop where
  pack : ∃ row, s.packAt request.pack = some row ∧ row.active = true ∧
    Store.readPack row = .ok p.pack
  documents : Planned request s p.pack.id p.documents
  jobs : ∃ jss, List.Forall₂ (Prints provider request p) p.documents jss ∧ js = jss.flatten
  /-- No document is left out. -/
  each : ∀ d ∈ p.documents, ∃ j ∈ js, j.document = d
  /-- No other document is printed. -/
  only : ∀ j ∈ js, j.document ∈ p.documents

/-- Why the jobs of a plan are not listed: a shipment lists a carton that is unknown. -/
def Unlisted (provider : Provider) (request : Request) (p : Plan) (e : PackError) : Prop :=
  ∃ d ∈ p.documents, ∃ codes, Lists provider request d codes ∧
    ∃ code ∈ codes, provider.carton code = none ∧ e = .unknownCarton code

theorem found_eq_ok {α : Type} {find : String → Option α} {error : String → PackError}
    {name : Option String} {a : Option α} (h : found find error name = .ok a) :
    a = name.bind find := by
  unfold found at h
  split at h
  · cases h
    rfl
  · split at h
    · next hfind =>
      cases h
      exact hfind.symm
    · cases h

/-- The pack of a plan is the active one of its code. -/
theorem pack_of_planOf {setting : Setting} {request : Request} {s : Store} (hs : s.Sound)
    {p : Plan} (h : planOf setting request s = .ok p) :
    (∃ row, s.packAt request.pack = some row ∧ row.active = true ∧ Store.readPack row = .ok p.pack) ∧
      p.carton = request.carton.bind setting.provider.carton := by
  obtain ⟨hpack, -, -, hcarton⟩ := of_planOf h
  refine ⟨?_, found_eq_ok hcarton⟩
  unfold activePack? at hpack
  cases hrow : s.packs.rows.find? fun row => row.code == request.pack && row.active with
  | none =>
    rw [hrow] at hpack
    cases hpack
  | some row =>
    rw [hrow, Option.mapM_some] at hpack
    obtain ⟨hcode, hactive⟩ := by simpa using List.find?_some hrow
    refine ⟨row, hcode ▸ hs.packAt_eq (List.mem_of_find?_eq_some hrow), hactive, ?_⟩
    cases hread : Store.readPack row with
    | error e =>
      rw [hread] at hpack
      cases hpack
    | ok found =>
      rw [hread] at hpack
      exact congrArg Except.ok (Option.some.inj (Except.ok.inj hpack))

/-- Jobs are jobs of a document. -/
theorem exists_document {provider : Provider} {request : Request} {p : Plan}
    {ds : List Document} {jss : List (List Job)}
    (h : List.Forall₂ (Prints provider request p) ds jss) :
    (∀ d ∈ ds, ∃ js ∈ jss, Prints provider request p d js) ∧
      ∀ js ∈ jss, ∃ d ∈ ds, Prints provider request p d js := by
  induction h with
  | nil => simp
  | cons hd _ ih =>
    refine ⟨List.forall_mem_cons.2 ⟨⟨_, List.mem_cons_self, hd⟩, fun d hd' => ?_⟩,
      List.forall_mem_cons.2 ⟨⟨_, List.mem_cons_self, hd⟩, fun js hjs => ?_⟩⟩
    · obtain ⟨js, hjs, hprints⟩ := ih.1 d hd'
      exact ⟨js, List.mem_cons_of_mem _ hjs, hprints⟩
    · obtain ⟨d, hd', hprints⟩ := ih.2 js hjs
      exact ⟨d, List.mem_cons_of_mem _ hd', hprints⟩

theorem exists_jobs {provider : Provider} {request : Request} {p : Plan}
    {ds : List Document} {jss : List (List Job)}
    (h : List.Forall₂ (Prints provider request p) ds jss) :
    (∀ d ∈ ds, ∃ j ∈ jss.flatten, j.document = d) ∧ ∀ j ∈ jss.flatten, j.document ∈ ds := by
  obtain ⟨hjobs, hdocuments⟩ := exists_document h
  refine ⟨fun d hd => ?_, fun j hj => ?_⟩
  · obtain ⟨js, hjs, hprints⟩ := hjobs d hd
    obtain ⟨j, hj⟩ := List.exists_mem_of_ne_nil js hprints.ne_nil
    exact ⟨j, List.mem_flatten_of_mem hjs hj, hprints.document hj⟩
  · obtain ⟨js, hjs, hj⟩ := List.mem_flatten.1 hj
    obtain ⟨d, hd, hprints⟩ := hdocuments js hjs
    rwa [hprints.document hj]

/-- The jobs of a plan, document by document. -/
theorem prints_of_planned {setting : Setting} {request : Request} {s : Store} (hs : s.Sound)
    {p : Plan} {js : List Job} (h : planned setting request s = .ok (p, js)) :
    Planned request s p.pack.id p.documents ∧
      ∃ jss, List.Forall₂ (Prints setting.provider request p) p.documents jss ∧
        js = jss.flatten := by
  obtain ⟨hp, hjs⟩ := planned_eq_ok.1 h
  obtain ⟨jss, hjss, hflat⟩ := except_bind_eq_ok.1 hjs
  cases hflat
  have hcarton := (pack_of_planOf hs hp).2
  exact ⟨(documents_of_planOf hp).1 ▸ planned_documents hs request p.pack.id, jss,
    (mapM_eq_ok.1 hjss).imp fun _ _ => prints_of_jobsOf hcarton, rfl⟩

/-- **What a request that plans comes to: the jobs of its documents, unless a carton that a
    shipment lists is unknown.** -/
theorem plan_prints {around : Surroundings} {w w' : World} {setting : Setting} {request : Request}
    {p : Plan} (hs : w.store.Sound) (h : (plan setting request).on around w = (.ok p, w')) :
    match jobs setting.provider p request.shipment with
    | .ok js => Printed setting.provider request w.store p js
    | .error e => Unlisted setting.provider request p e := by
  rw [on_plan] at h
  have hp : planOf setting request w.store = .ok p := congrArg Prod.fst h
  obtain ⟨hpack, hcarton⟩ := pack_of_planOf hs hp
  cases hjobs : jobs setting.provider p request.shipment with
  | error e =>
    dsimp only
    unfold jobs at hjobs
    cases hjss : p.documents.mapM (jobsOf setting.provider p request.shipment) with
    | error e' =>
      rw [hjss] at hjobs
      cases hjobs
      obtain ⟨d, hd, herror⟩ := exists_error_of_mapM hjss
      exact ⟨d, hd, error_of_jobsOf herror⟩
    | ok jss =>
      rw [hjss] at hjobs
      cases hjobs
  | ok js =>
    dsimp only
    obtain ⟨jss, hjss, hflat⟩ := except_bind_eq_ok.1 hjobs
    cases hflat
    have hprints : List.Forall₂ (Prints setting.provider request p) p.documents jss :=
      (mapM_eq_ok.1 hjss).imp fun _ _ => prints_of_jobsOf hcarton
    obtain ⟨heach, honly⟩ := exists_jobs hprints
    exact {
      pack := hpack
      documents := (documents_of_planOf hp).1 ▸ planned_documents hs request p.pack.id
      jobs := ⟨jss, hprints, rfl⟩
      each := heach
      only := honly }

/-- An import of a pack with a label of all cartons. -/
def sampleLabels : Operation :=
  .importing ⟨fun _ => .ok ⟨#[80, 75]⟩, "packs", sampleSignature⟩
    ⟨[⟨"D", "", true, .a4, none, [⟨destinationLabel, allLabels, 1, true, some "label.xlsx",
      []⟩]⟩]⟩

/-- What a sample of labels is generated by: every shipment lists two cartons. -/
def sampleShipping : Setting :=
  { sampleSetting with
    provider := ⟨fun _ => some .empty, fun code => some (.ofText code), fun _ => ["C1", "C2"]⟩ }

/-- A request for the labels of a shipment. -/
def sampleRequest : Request := { Request.ofPack "D" with shipment := some "SHP-1" }

theorem sample_plan_prints : ∃ p js,
    Printed sampleShipping.provider sampleRequest (World.start.runAll [sampleLabels]).store p js ∧
      js.map (fun j => (j.document.type, j.suffix)) =
        [(destinationLabel, "-1"), (destinationLabel, "-2")] := by
  have hplanned : (planned sampleShipping sampleRequest (World.start.runAll
      [sampleLabels]).store).map (fun found => found.2.map fun j => (j.document.type, j.suffix)) =
      .ok [(destinationLabel, "-1"), (destinationLabel, "-2")] := by
    decide +kernel
  have hs := (recorded_runAll [sampleLabels]).sound
  -- the world is only looked into above, so that the steps below do not run the import again
  generalize World.start.runAll [sampleLabels] = w at hplanned hs ⊢
  cases hp : planned sampleShipping sampleRequest w.store with
  | error e =>
    rw [hp] at hplanned
    cases hplanned
  | ok found =>
    obtain ⟨p, js⟩ := found
    rw [hp] at hplanned
    obtain ⟨hplan, hjobs⟩ := planned_eq_ok.1 hp
    have hon : (plan sampleShipping sampleRequest).on sampleSurroundings w = (.ok p, w) :=
      (on_plan _ _).trans (by rw [hplan])
    have h := plan_prints hs hon
    rw [hjobs] at h
    exact ⟨p, js, h, Except.ok.inj hplanned⟩

end Waybill.Generation
