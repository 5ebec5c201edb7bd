/-
  What generating a pack leaves.

  * `Adds`: one more artifact, with its items, and nothing else changed;
  * `Finished` and `Abandoned` are the two ways an artifact is left, `LeftAs` its row in each;
  * `Named`: its file is named by its pack and a reading of the clock.

  Statements: `on_carryOut` (the run after the planning), `generate_finished_or_abandoned` (nothing
  is done when the planning fails; otherwise an artifact is added, and its state tells how far the
  work went), `generate_rows` (the artifacts after it), `named_of_generate` (the name of the file).
-/
import Waybill.Proofs.Generation.Jobs
import Waybill.Proofs.Operation

namespace Waybill.Generation

open Waybill.Store Waybill.Table

/-! ## One more artifact -/

/-- The store has one more artifact, with its items; all else is as before. -/
structure Adds (s : Store) (a : Artifact) (added : List ArtifactItem) (s' : Store) : Prop where
  packs : s'.packs = s.packs
  documents : s'.documents = s.documents
  rules : s'.rules = s.rules
  versions : s'.versions = s.versions
  artifacts : s'.artifacts.rows = s.artifacts.rows ++ [⟨a, none⟩]
  fresh : ∀ row ∈ s.artifacts.rows, row.artifact.id ≠ a.id
  items : s'.items.rows = s.items.rows ++ added
  itemsOf : s'.itemsOf a.id = added

/-- The store with a new artifact and more items. -/
def withArtifact (s : Store) (new : NewArtifact) (items : Table ArtifactItem) : Store :=
  { s with artifacts := s.artifacts.push fun id => ⟨new.artifact id, none⟩, items }

/-- The items of a new artifact are those added for it: no item refers to an artifact to come. -/
theorem itemsOf_fresh {s s' : Store} (hs : s.Sound) {items : List ArtifactItem}
    (hrows : s'.items.rows = s.items.rows ++ items)
    (hitems : ∀ i ∈ items, i.artifact = s.artifacts.next) :
    s'.itemsOf s.artifacts.next = items := by
  unfold itemsOf
  rw [hrows, List.filter_append, List.filter_eq_nil_iff.2, List.filter_eq_self.2, List.nil_append]
  · intro i hi
    exact beq_iff_eq.2 (hitems i hi)
  · intro i hi h
    obtain ⟨row, hrow, hid⟩ := hs.itemArtifacts i hi
    exact Int.ne_of_lt (hs.artifacts.lt_next hrow) (hid.trans (beq_iff_eq.1 h))

theorem adds_changeArtifact {s : Store} (hs : s.Sound) (new : NewArtifact)
    {items : List ArtifactItem} {t : Table ArtifactItem} (ht : t.rows = s.items.rows ++ items)
    (hitems : ∀ i ∈ items, i.artifact = s.artifacts.next) (f : Artifact → Artifact)
    (hf : ∀ a, (f a).id = a.id) :
    Adds s (f (new.artifact s.artifacts.next)) items
      ((withArtifact s new t).changeArtifact s.artifacts.next f) where
  packs := rfl
  documents := rfl
  rules := rfl
  versions := rfl
  artifacts := hs.artifacts.rows_change_push (fun id => ⟨new.artifact id, none⟩) rfl
    fun row => ⟨f row.artifact, none⟩
  fresh := by
    intro row hrow
    rw [hf]
    exact Int.ne_of_lt (hs.artifacts.lt_next hrow)
  items := ht
  itemsOf := by
    rw [hf]
    exact itemsOf_fresh hs ht hitems

/-- What `finalize` makes of an artifact. -/
def finalized (pdfName : String) (pdf : ByteArray) (a : Artifact) : Artifact :=
  { a with
    pdfName := some pdfName, pdf := some pdf, checksum := Digest.sha256Hex pdf
    status := .syncPending }

/-- What `markFailed` makes of an artifact. -/
def failed (error : String) (a : Artifact) : Artifact :=
  { a with status := .generationFailed, lastError := error }

theorem finalize_withArtifact {s : Store} (hs : s.Sound) (new : NewArtifact)
    (t : Table ArtifactItem) (pdfName : String) (pdf : ByteArray) :
    finalize s.artifacts.next pdfName pdf (Digest.sha256Hex pdf) (withArtifact s new t) =
      .ok (finalized pdfName pdf (new.artifact s.artifacts.next),
        (withArtifact s new t).changeArtifact s.artifacts.next (finalized pdfName pdf)) := by
  have hnum : ((withArtifact s new t).changeArtifact s.artifacts.next
      (finalized pdfName pdf)).artifacts.Numbered fun row => row.artifact.id :=
    (hs.artifacts.push (fun id => ⟨new.artifact id, none⟩) rfl).change fun _ _ => rfl
  have hadds : Adds s (finalized pdfName pdf (new.artifact s.artifacts.next)) _ _ :=
    adds_changeArtifact (t := ⟨s.items.rows ++ [], 0⟩) hs new rfl (by simp) _ fun _ => rfl
  refine finalize_eq_ok.2 ⟨rfl, ?_⟩
  have hrow := List.mem_append_right s.artifacts.rows
    (List.mem_singleton_self (⟨finalized pdfName pdf (new.artifact s.artifacts.next), none⟩))
  rw [← hadds.artifacts] at hrow
  exact artifact_eq hnum hrow

/-! ## The end of the work -/

/-- The conversion that gave an item its file. -/
def conversionOf (timeout : Nat) (i : ArtifactItem) :
    ByteArray × String × Nat × Except Drive.ConversionError ByteArray :=
  (i.xlsx, i.xlsxName, timeout, .ok i.pdf)

/-- All jobs are done: the artifact waits to be delivered, with the file of its only item, or what
    the merger made of the files of all items. -/
structure Finished (setting : Setting) (s : Store) (p : Plan) (js : List Job) (a : Artifact)
    (items : List ArtifactItem) (events : List Event) : Prop where
  status : a.status = .syncPending
  jobs : List.Forall₂ (ItemOf setting s p a.id) js items
  converted : conversions events = items.map (conversionOf setting.timeout)
  file : ∃ pdf, a.pdf = some pdf ∧ a.checksum = Digest.sha256Hex pdf ∧
    ((∃ i, items = [i] ∧ i.pdf = pdf ∧ merges events = []) ∨
      (2 ≤ items.length ∧ merges events = [(items.map (·.pdf), .ok pdf)]))

/-- An artifact without a file that notes the error that ended its generation. -/
structure Abandoned (a : Artifact) (e : PackError) : Prop where
  status : a.status = .generationFailed
  lastError : a.lastError = e.message
  pdf : a.pdf = none
  checksum : a.checksum = ""

/-- Where the work ended: at a job, with the items of the jobs before it, or at the merger, with the
    items of all jobs. -/
inductive Stopped (setting : Setting) (s : Store) (p : Plan) (js : List Job) (artifact : Id)
    (items : List ArtifactItem) (events : List Event) : PackError → Prop
  | job {done rest : List Job} {j : Job} {last : List Event} {e : PackError}
    (hjs : js = done ++ j :: rest)
    (hitems : List.Forall₂ (ItemOf setting s p artifact) done items)
    (hfails : Fails setting s p j last e)
    (hconverted : conversions events =
      items.map (conversionOf setting.timeout) ++ conversions last)
    (hmerges : merges events = []) : Stopped setting s p js artifact items events e
  | merge {e : Pdf.PdfError}
    (hitems : List.Forall₂ (ItemOf setting s p artifact) js items)
    (hconverted : conversions events = items.map (conversionOf setting.timeout))
    (hmerges : merges events = [(items.map (·.pdf), .error e)]) :
    Stopped setting s p js artifact items events (.pdf e)

variable {setting : Setting} {p : Plan}

/-- What was done only shows in the conversions and the merges. -/
theorem Finished.of_events {s : Store} {js : List Job} {a : Artifact} {items : List ArtifactItem}
    {events events' : List Event} (h : Finished setting s p js a items events)
    (hc : conversions events' = conversions events) (hm : merges events' = merges events) :
    Finished setting s p js a items events' where
  status := h.status
  jobs := h.jobs
  converted := hc.trans h.converted
  file := hm ▸ h.file

theorem Stopped.of_events {s : Store} {js : List Job} {artifact : Id} {items : List ArtifactItem}
    {events events' : List Event} {e : PackError}
    (h : Stopped setting s p js artifact items events e)
    (hc : conversions events' = conversions events) (hm : merges events' = merges events) :
    Stopped setting s p js artifact items events' e := by
  cases h with
  | job hjs hitems hfails hconverted hmerges =>
    exact .job hjs hitems hfails (hc.trans hconverted) (hm.trans hmerges)
  | merge hitems hconverted hmerges => exact .merge hitems (hc.trans hconverted) (hm.trans hmerges)

/-- The name of an artifact's file, by its pack and the moment. -/
def fileName (code : String) (now : Calendar.Instant) : String :=
  "print-pack-" ++ code ++ "-" ++ now.stamp ++ ".pdf"

/-- The work after the jobs: the files are put together, and the artifact gets its own. -/
def finish (p : Plan) (artifact : Id) (pdfs : List ByteArray) : Work PackError Artifact := do
  let pdf ← mergeAll p.pack.code pdfs
  let now ← Work.ask .now
  Work.attempt .store
    (.store (finalize artifact (fileName p.pack.code now) pdf (Digest.sha256Hex pdf)))

theorem on_mergeAll (around : Surroundings) (w : World) (code : String) {pdfs : List ByteArray}
    (h : pdfs ≠ []) :
    (∃ pdf events, (mergeAll code pdfs).on around w = (.ok pdf, w.afterAll events) ∧
      ((pdfs = [pdf] ∧ events = []) ∨
        (2 ≤ pdfs.length ∧ events = [.merge pdfs (.ok pdf)]))) ∨
    ∃ e, (mergeAll code pdfs).on around w =
      (.error (.pdf e), w.afterAll [.merge pdfs (.error e)]) := by
  match pdfs, h with
  | [pdf], _ =>
    exact Or.inl ⟨pdf, [], by simp [mergeAll, Work.on_pure, World.afterAll], Or.inl ⟨rfl, rfl⟩⟩
  | pdf :: pdf' :: rest, _ =>
    rcases Work.on_merge PackError.pdf (pdf :: pdf' :: rest) with ⟨merged, hon⟩ | ⟨e, hon⟩
    · exact Or.inl ⟨merged, _, hon, Or.inr ⟨by simp, rfl⟩⟩
    · exact Or.inr ⟨e, hon⟩

/-- The artifact gets its file, or the merger fails. -/
theorem on_finish (around : Surroundings) {s : Store} (hs : s.Sound) (new : NewArtifact)
    (t : Table ArtifactItem) (past : List Event) {pdfs : List ByteArray} (h : pdfs ≠ []) :
    (∃ now pdf events, let name := fileName p.pack.code now
      (finish p s.artifacts.next pdfs).on around ⟨withArtifact s new t, past⟩ =
        (.ok (finalized name pdf (new.artifact s.artifacts.next)),
          ⟨(withArtifact s new t).changeArtifact s.artifacts.next (finalized name pdf),
            past ++ events⟩) ∧
      .now now ∈ events ∧ conversions events = [] ∧ ((pdfs = [pdf] ∧ merges events = []) ∨
        (2 ≤ pdfs.length ∧ merges events = [(pdfs, .ok pdf)]))) ∨
    ∃ e, (finish p s.artifacts.next pdfs).on around ⟨withArtifact s new t, past⟩ =
      (.error (.pdf e), ⟨withArtifact s new t, past ++ [.merge pdfs (.error e)]⟩) := by
  rcases on_mergeAll around ⟨withArtifact s new t, past⟩ p.pack.code h with
    ⟨pdf, events, hmerge, hfile⟩ | ⟨e, hmerge⟩
  · let now := around.now (past ++ events)
    let name := fileName p.pack.code now
    let w : World := ⟨withArtifact s new t, past ++ events ++ [.now now]⟩
    have hon : (Work.attempt PackError.store (.store (finalize s.artifacts.next name pdf
        (Digest.sha256Hex pdf)))).on around w = _ :=
      Work.on_store_of_ok (finalize_withArtifact hs new t name pdf)
    refine Or.inl ⟨now, pdf, events ++ [.now now], (Work.on_bind_of_ok hmerge).trans
      ((Work.on_bind_of_ok Work.on_now).trans (hon.trans ?_)), List.mem_concat_self .., ?_⟩
    · rw [← List.append_assoc]
    · rcases hfile with ⟨hone, rfl⟩ | ⟨hmany, rfl⟩
      · exact ⟨rfl, Or.inl ⟨hone, rfl⟩⟩
      · exact ⟨rfl, Or.inr ⟨hmany, rfl⟩⟩
  · exact Or.inr ⟨e, Work.on_bind_of_error hmerge⟩

/-- The work for an artifact finishes it, or stops. -/
theorem on_renderArtifact (around : Surroundings) (setting : Setting) (p : Plan) {s : Store}
    (hs : s.Sound) (new : NewArtifact) (past : List Event) {js : List Job} (hjs : js ≠ []) :
    ∃ items events t, t.rows = s.items.rows ++ items ∧
      (∀ i ∈ items, i.artifact = s.artifacts.next) ∧
      ((∃ now pdf, let name := fileName p.pack.code now
          (renderArtifact setting p js s.artifacts.next).on around
          ⟨withArtifact s new s.items, past⟩ =
            (.ok (finalized name pdf (new.artifact s.artifacts.next)),
              ⟨(withArtifact s new t).changeArtifact s.artifacts.next (finalized name pdf),
                past ++ events⟩) ∧
          .now now ∈ events ∧
          Finished setting s p js (finalized name pdf (new.artifact s.artifacts.next)) items
            events) ∨
        ∃ e, (renderArtifact setting p js s.artifacts.next).on around
          ⟨withArtifact s new s.items, past⟩ = (.error e, ⟨withArtifact s new t, past ++ events⟩) ∧
          Stopped setting s p js s.artifacts.next items events e) := by
  let w : World := ⟨withArtifact s new s.items, past⟩
  have ha : ∃ row ∈ w.store.artifacts.rows, row.artifact.id = s.artifacts.next :=
    ⟨_, mem_push.2 (Or.inr rfl), rfl⟩
  obtain ⟨xs, hxs, hrun⟩ := on_convertJobs around w js ha
  obtain ⟨t, hstore, hrows⟩ := w.store_fileAll setting.timeout s.artifacts.next xs
  have ht : t.rows = s.items.rows ++ Done.items s.artifacts.next s.items.next xs := hrows
  have hworld : w.fileAll setting.timeout s.artifacts.next xs =
      ⟨withArtifact s new t, past ++ xs.flatMap (·.events setting.timeout)⟩ :=
    congr (congrArg World.mk hstore) (w.past_fileAll setting.timeout s.artifacts.next xs)
  rw [hworld] at hrun
  have hitems := Done.forall₂_items s.artifacts.next s.items.next fun x hx =>
    (rendered_of_rules (by rfl : w.store.rules = s.rules) p x.job x.day).symm.trans (hxs x hx)
  have hconverted := Done.conversions_events setting.timeout s.artifacts.next s.items.next xs
  have hmerges := Done.merges_events setting.timeout xs
  have hpdf := Done.map_pdf_items s.artifacts.next s.items.next xs
  have hof : ∀ i ∈ Done.items s.artifacts.next s.items.next xs, i.artifact = s.artifacts.next :=
    fun _ => Done.artifact_of_mem_items
  generalize xs.flatMap (·.events setting.timeout) = calls at hrun hconverted hmerges
  generalize Done.items s.artifacts.next s.items.next xs = items at ht hitems hconverted hpdf hof
  refine ⟨items, ?_⟩
  rcases hrun with ⟨rfl, hon⟩ | ⟨j, rest, last, e, rfl, hfails, hon⟩
  · have hpdfs : xs.map (·.pdf) ≠ [] := by simpa using hjs
    rcases on_finish around hs new t (past ++ calls) hpdfs with
      ⟨now, pdf, more, hfinish, hnow, hmore, hfile⟩ | ⟨e, hfinish⟩
    · refine ⟨calls ++ more, t, ht, hof, Or.inl ⟨now, pdf, ?_, List.mem_append_right _ hnow, rfl,
        hitems, ?_, pdf, rfl, rfl, ?_⟩⟩
      · rw [← List.append_assoc]
        exact (Work.on_bind_of_ok hon).trans hfinish
      · rw [conversions_append, hconverted, hmore, List.append_nil]
        rfl
      · rw [merges_append, hmerges, List.nil_append]
        rw [← hpdf] at hfile
        rcases hfile with ⟨hone, hmerge⟩ | ⟨hmany, hmerge⟩
        · obtain ⟨i, rfl, hi⟩ := List.map_eq_singleton_iff.1 hone
          exact Or.inl ⟨i, rfl, hi, hmerge⟩
        · exact Or.inr ⟨by rwa [List.length_map] at hmany, hmerge⟩
    · refine ⟨calls ++ [.merge (xs.map (·.pdf)) (.error e)], t, ht, hof, Or.inr ⟨.pdf e, ?_, ?_⟩⟩
      · rw [← List.append_assoc]
        exact (Work.on_bind_of_ok hon).trans hfinish
      · refine .merge hitems ?_ ?_
        · rw [conversions_append, hconverted]
          exact List.append_nil _
        · rw [merges_append, hmerges, hpdf]
          rfl
  · have hfails := hfails.of_rules (by rfl : w.store.rules = s.rules)
    refine ⟨calls ++ last, t, ht, hof, Or.inr ⟨e, ?_, .job rfl hitems hfails ?_ ?_⟩⟩
    · rw [← List.append_assoc]
      exact Work.on_bind_of_error hon
    · rw [conversions_append, hconverted]
      rfl
    · rw [merges_append, hmerges, hfails.merges_eq]
      rfl

/-! ## The run after the planning -/

/-- What is done when the work for an artifact stops: the error is noted. -/
def giveUp (artifact : Id) (e : PackError) : Work PackError Artifact := do
  let _ ← Work.ask (.store (markFailed artifact e.message))
  throw e

theorem on_giveUp (around : Surroundings) (w : World) (artifact : Id) (e : PackError) :
    (giveUp artifact e).on around w =
      (.error e, { w with store := w.store.changeArtifact artifact (failed e.message) }) := rfl

/-- What is done once a request is planned. -/
def carryOut (setting : Setting) (request : Request) (p : Plan) (js : List Job) :
    Work PackError Artifact := do
  let now ← Work.ask .now
  let artifact ← Work.attempt .store (.store (insertArtifact {
    packCode := p.pack.code
    shipment := request.shipment
    carton := request.carton
    createdBy := request.user
    createdAt := now }))
  tryCatch (renderArtifact setting p js artifact.id) (giveUp artifact.id)

theorem generate_eq (setting : Setting) (request : Request) :
    generate setting request = plan setting request >>= fun p =>
      liftM (jobs setting.provider p request.shipment) >>= carryOut setting request p := rfl

/-- What becomes of a new artifact, with the answer of the generation: it gets its file, or the
    error that ended the work is noted. -/
inductive LeftAs (new : Artifact) : Except PackError Artifact → Artifact → Prop
  | finished (pdfName : String) (pdf : ByteArray) :
    LeftAs new (.ok (finalized pdfName pdf new)) (finalized pdfName pdf new)
  | abandoned (e : PackError) : LeftAs new (.error e) (failed e.message new)

/-- The file of the artifact is named by its pack, and a moment that was read off the clock. -/
def Named (past : List Event) (a : Artifact) : Prop :=
  ∃ now, .now now ∈ past ∧ a.pdfName = some (fileName a.packCode now)

/-- The artifact that a request asks for, at the moment that it is added. -/
def Plan.newArtifact (p : Plan) (request : Request) (now : Calendar.Instant) : NewArtifact :=
  ⟨p.pack.code, request.shipment, request.carton, request.user, now⟩

/-- An artifact is added first, and then the work for it is done. -/
theorem on_carryOut_start (around : Surroundings) (setting : Setting) (request : Request)
    (w : World) (hs : w.store.Sound) (p : Plan) (js : List Job) :
    let now := around.now w.past
    let new := p.newArtifact request now
    (carryOut setting request p js).on around w =
      (tryCatch (renderArtifact setting p js w.store.artifacts.next)
        (giveUp w.store.artifacts.next)).on around
          ⟨withArtifact w.store new w.store.items, w.past ++ [.now now]⟩ := by
  intro now new
  have hinsert : (Work.attempt PackError.store (.store (insertArtifact new))).on around
      (w.after (.now now)) = (.ok (new.artifact w.store.artifacts.next),
        ⟨withArtifact w.store new w.store.items, w.past ++ [.now now]⟩) :=
    Work.on_store_of_ok ((insertArtifact_eq_ok hs).2 ⟨rfl, rfl⟩)
  exact (Work.on_bind_of_ok Work.on_now).trans (Work.on_bind_of_ok hinsert)

/-- An artifact is added, and left in one of the two ways. -/
theorem on_carryOut_left (around : Surroundings) (setting : Setting) (request : Request) (w : World)
    (hs : w.store.Sound) (p : Plan) {js : List Job} (hjs : js ≠ []) :
    ∃ result a items events w', (carryOut setting request p js).on around w = (result, w') ∧
      w'.past = w.past ++ events ∧ Adds w.store a items w'.store ∧
      (∃ new : NewArtifact, LeftAs (new.artifact w.store.artifacts.next) result a) ∧
      (∀ r, result = .ok r → Named w'.past r) ∧
      match result with
      | .ok r => r = a ∧ Finished setting w.store p js a items events
      | .error e => Abandoned a e ∧ Stopped setting w.store p js a.id items events e := by
  let now := around.now w.past
  let new := p.newArtifact request now
  let past := w.past ++ [.now now]
  have hstart := on_carryOut_start around setting request w hs p js
  obtain ⟨items, events, t, ht, hof, h⟩ :=
    on_renderArtifact around setting p hs new past hjs
  have hpast : past ++ events = w.past ++ (.now now :: events) := by simp [past]
  rcases h with ⟨made, pdf, hon, hmade, hfinished⟩ | ⟨e, hon, hstopped⟩
  · have hnamed : Named (past ++ events)
        (finalized (fileName p.pack.code made) pdf (new.artifact w.store.artifacts.next)) :=
      ⟨made, List.mem_append_right _ hmade, rfl⟩
    exact ⟨_, _, items, _, _, hstart.trans (Work.on_tryCatch_of_ok hon), hpast,
      adds_changeArtifact hs new ht hof (finalized (fileName p.pack.code made) pdf) fun _ => rfl,
      ⟨new, .finished (fileName p.pack.code made) pdf⟩, fun _ h => Except.ok.inj h ▸ hnamed, rfl,
      hfinished.of_events rfl rfl⟩
  · exact ⟨_, _, items, _, _,
      hstart.trans ((Work.on_tryCatch_of_error hon).trans (on_giveUp around _ _ e)), hpast,
      adds_changeArtifact hs new ht hof (failed e.message) fun _ => rfl, ⟨new, .abandoned e⟩,
      fun _ h => (by cases h), ⟨rfl, rfl, rfl, rfl⟩, hstopped.of_events rfl rfl⟩

/-- An artifact is added, and finished or abandoned. -/
theorem on_carryOut (around : Surroundings) (setting : Setting) (request : Request) (w : World)
    (hs : w.store.Sound) (p : Plan) {js : List Job} (hjs : js ≠ []) :
    ∃ result a items events w', (carryOut setting request p js).on around w = (result, w') ∧
      w'.past = w.past ++ events ∧ Adds w.store a items w'.store ∧
      match result with
      | .ok r => r = a ∧ Finished setting w.store p js a items events
      | .error e => Abandoned a e ∧ Stopped setting w.store p js a.id items events e := by
  obtain ⟨result, a, items, events, w', hrun, hpast, hadds, -, -, h⟩ :=
    on_carryOut_left around setting request w hs p hjs
  exact ⟨result, a, items, events, w', hrun, hpast, hadds, h⟩

/-- The artifacts after a generation: as before when the planning fails, and else with one more,
    left in one of the two ways. -/
theorem generate_rows (around : Surroundings) (setting : Setting) (request : Request) (w : World)
    (hs : w.store.Sound) :
    (∃ e, (generate setting request).on around w = (.error e, w)) ∨
    ∃ result a w', (generate setting request).on around w = (result, w') ∧
      w'.store.artifacts.rows = w.store.artifacts.rows ++ [⟨a, none⟩] ∧
      ∃ new : NewArtifact, LeftAs (new.artifact w.store.artifacts.next) result a := by
  have hrun := on_planning around w setting request (carryOut setting request)
  rw [← generate_eq] at hrun
  rw [hrun]
  cases h : planned setting request w.store with
  | error e => exact Or.inl ⟨e, rfl⟩
  | ok planned =>
    obtain ⟨p, js⟩ := planned
    obtain ⟨result, a, items, events, w', hrun, -, hadds, hleft, -⟩ :=
      on_carryOut_left around setting request w hs p (planned_jobs_ne_nil h)
    exact Or.inr ⟨result, a, w', hrun, hadds.artifacts, hleft⟩

/-- The file of an artifact that a generation gives back is named by a reading of the clock. -/
theorem named_of_generate {around : Surroundings} {setting : Setting} {request : Request}
    {w w' : World} (hs : w.store.Sound) {a : Artifact}
    (h : (generate setting request).on around w = (.ok a, w')) : Named w'.past a := by
  have hplanning := on_planning around w setting request (carryOut setting request)
  rw [← generate_eq, h] at hplanning
  cases hp : planned setting request w.store with
  | error e =>
    rw [hp] at hplanning
    cases hplanning
  | ok planned =>
    obtain ⟨p, js⟩ := planned
    rw [hp] at hplanning
    obtain ⟨result, b, items, events, w₁, hrun, -, -, -, hnamed, -⟩ :=
      on_carryOut_left around setting request w hs p (planned_jobs_ne_nil hp)
    obtain ⟨rfl, rfl⟩ := Prod.mk.injEq .. ▸ hplanning.trans hrun
    exact hnamed a rfl

/-- **Generating finishes or abandons one more artifact.**  When the planning fails nothing is done;
    otherwise an artifact is added, and nothing else changes: it waits to be delivered when the call
    succeeds, and notes the error when it fails. -/
theorem generate_finished_or_abandoned (around : Surroundings) (setting : Setting)
    (request : Request) (w : World) (hs : w.store.Sound) :
    match planned setting request w.store with
    | .error e => (generate setting request).on around w = (.error e, w)
    | .ok (p, js) => ∃ result a items events w',
      (generate setting request).on around w = (result, w') ∧ w'.past = w.past ++ events ∧
      Adds w.store a items w'.store ∧
      match result with
      | .ok r => r = a ∧ Finished setting w.store p js a items events
      | .error e => Abandoned a e ∧ Stopped setting w.store p js a.id items events e := by
  have hrun := on_planning around w setting request (carryOut setting request)
  rw [← generate_eq] at hrun
  rw [hrun]
  cases h : planned setting request w.store with
  | error e => rfl
  | ok planned =>
    obtain ⟨p, js⟩ := planned
    exact on_carryOut around setting request w hs p (planned_jobs_ne_nil h)

/-- What a sample pack is generated by: templates are kept in the store only. -/
def sampleSetting : Setting where
  format := .memory
  templateDirs := []
  templateFile _ := none
  archive := Archive.zip
  provider := ⟨fun _ => none, fun _ => none, fun _ => []⟩
  timeout := 0
  fallback := false

/-- Surroundings that do all they are asked. -/
def sampleSurroundings : Surroundings where
  convert _ _ _ _ := .ok .empty
  merge _ _ := .ok .empty
  upload _ _ _ _ := .ok ()
  now _ := .ofEpoch 0 0
  today _ := .epoch

/-- An import of a pack with one document, whose template has no sheets. -/
def templateImport : Operation :=
  .importing ⟨fun _ => .ok "\x7b\"sheets\":[]\x7d".toUTF8, "packs", sampleSignature⟩
    ⟨[⟨"A", "", true, .a4, none, [⟨"note", "shipment", 1, true, some "note.json", []⟩]⟩]⟩

/-- Surroundings where every conversion gives the same three bytes. -/
def convertingToAbc : Surroundings :=
  { sampleSurroundings with convert := fun _ _ _ _ => .ok ⟨#[97, 98, 99]⟩ }

/-- The pack is generated: its artifact has the converted file, and the checksum of it. -/
theorem sample_generate_adds : ∃ a i,
    ((generate sampleSetting (.ofPack "A")).on convertingToAbc
      (World.start.runAll [templateImport])).1 = .ok a ∧
    Adds (World.start.runAll [templateImport]).store a [i]
      ((generate sampleSetting (.ofPack "A")).on convertingToAbc
        (World.start.runAll [templateImport])).2.store ∧
    a.status = .syncPending ∧ i.pdf = ⟨#[97, 98, 99]⟩ ∧ a.pdf = some ⟨#[97, 98, 99]⟩ ∧
    a.checksum = "ba7816bf8f01cfea414140de5dae2223b00361a396177a9cb410ff61f20015ad" := by
  have hplanned : (planned sampleSetting (.ofPack "A") (World.start.runAll
      [templateImport]).store).map (·.2.length) = .ok 1 := by
    decide +kernel
  have hgenerated : ((generate sampleSetting (.ofPack "A")).on convertingToAbc
      (World.start.runAll [templateImport])).1.map (·.pdf) = .ok (some ⟨#[97, 98, 99]⟩) := by
    decide +kernel
  have hchecksum : Digest.sha256Hex ⟨#[97, 98, 99]⟩ =
      "ba7816bf8f01cfea414140de5dae2223b00361a396177a9cb410ff61f20015ad" := by
    decide +kernel
  have hs := (recorded_runAll [templateImport]).sound
  -- the world is only looked into above, so that the steps below do not run the import again
  generalize World.start.runAll [templateImport] = w at hplanned hgenerated hs ⊢
  have h := generate_finished_or_abandoned convertingToAbc sampleSetting (.ofPack "A") w hs
  cases hp : planned sampleSetting (.ofPack "A") w.store with
  | error e =>
    rw [hp] at hplanned
    cases hplanned
  | ok planned =>
    obtain ⟨p, js⟩ := planned
    rw [hp] at h hplanned
    obtain ⟨result, a, items, events, w', hrun, -, hadds, hleft⟩ := h
    rw [hrun] at hgenerated ⊢
    cases result with
    | error e => cases hgenerated
    | ok r =>
      obtain ⟨rfl, hfinished⟩ := hleft
      have hlength := hfinished.jobs.length_eq.symm.trans (Except.ok.inj hplanned)
      obtain ⟨pdf, hpdf, hsum, ⟨i, rfl, hi, -⟩ | ⟨hseveral, -⟩⟩ := hfinished.file
      · obtain rfl : pdf = _ := Option.some.inj (hpdf.symm.trans (Except.ok.inj hgenerated))
        exact ⟨r, i, rfl, hadds, hfinished.status, hi, hpdf, hsum.trans hchecksum⟩
      · omega

end Waybill.Generation
