/-
  The steps of generation and delivery.

  * `Harmless`: a property of all steps of generation but those that change the store.

  Statements: `generate_each` (what its changes of the store have as well, all steps of generation
  have); `generate_within` and `process_within` (a run is within every relation that the actions on
  artifacts and items are within), `quiet_generate` and `quiet_process` (documents, rules and
  versions stay); `silent_generate` (nothing is uploaded).
-/
import Waybill.Delivery.Queue
import Waybill.Generation.Generate
import Waybill.Proofs.Generation.World
import Waybill.Proofs.History.Records

namespace Waybill

open Waybill.Store Waybill.Generation

/-! ## Quiet actions -/

namespace Store

variable {s s' : Store}

theorem insertArtifact_ok {a : NewArtifact} {r : Artifact} (h : insertArtifact a s = .ok (r, s')) :
    s' = { s with artifacts := s.artifacts.push fun id => ⟨a.artifact id, none⟩ } := by
  simp only [insertArtifact, Action.get_bind_eq_ok, Action.set_bind_eq_ok, Action.lift_eq_ok] at h
  exact h.2

theorem quiet_insertArtifact (a : NewArtifact) : (insertArtifact a).Keeps Quiet := by
  intro s r s' h
  rw [insertArtifact_ok h]
  exact ⟨fun hs => hs.pushArtifact a, rfl, rfl, fun row hrow => ⟨row, hrow, rfl, rfl⟩⟩

theorem quiet_insertItem (item : ArtifactItem) : (insertItem item).Keeps Quiet := by
  intro s i s' h
  have hsound : s.Sound → s'.Sound := fun hs => hs.insertItem h
  obtain ⟨-, -, rfl⟩ := insertItem_eq_ok.1 h
  exact ⟨hsound, rfl, rfl, fun row hrow => ⟨row, hrow, rfl, rfl⟩⟩

theorem quiet_changeArtifact (s : Store) (id : Id) {f : Artifact → Artifact}
    (hf : ∀ a, (f a).id = a.id) : Quiet s (s.changeArtifact id f) :=
  ⟨fun hs => hs.changeArtifact id hf, rfl, rfl, fun row hrow => ⟨row, hrow, rfl, rfl⟩⟩

theorem quiet_finalize (id : Id) (pdfName : String) (pdf : ByteArray) (checksum : String) :
    (finalize id pdfName pdf checksum).Keeps Quiet := by
  intro s r s' h
  rw [(finalize_eq_ok.1 h).1]
  exact quiet_changeArtifact s id fun _ => rfl

theorem quiet_markFailed (id : Id) (error : String) : (markFailed id error).Keeps Quiet := by
  intro s u s' h
  rw [Action.modify_eq_ok.1 h]
  exact quiet_changeArtifact s id fun _ => rfl

theorem quiet_recordOutcome (a : Artifact) : (recordOutcome a).Keeps Quiet := by
  intro s u s' h
  rw [Action.modify_eq_ok.1 h]
  exact quiet_changeArtifact s a.id fun _ => rfl

end Store

/-! ## Generation -/

namespace Generation

/-- A property of all steps of generation but those that change the store: looking at the store,
    and whatever is asked of others than the drive. -/
structure Harmless (P : (β : Type) → Step β → Prop) : Prop where
  readPack : ∀ code variant, P _ (.store (readPack code variant))
  readRules : ∀ id, P _ (.store (do return (← get).rulesOf id))
  convert : ∀ xlsx name timeout, P _ (.convert xlsx name timeout)
  merge : ∀ pdfs, P _ (.merge pdfs)
  now : P _ .now
  today : P _ .today

theorem readPack_keeps {R : Store → Store → Prop} [IsPreorder Store R] (code : String)
    (variant : Option String) : (readPack code variant).Keeps R := by
  refine Action.Keeps.get.bind fun s => (Action.Keeps.lift _).bind fun pack => ?_
  cases pack <;> exact .pure _

theorem harmless_within (R : Store → Store → Prop) [IsPreorder Store R] :
    Harmless (Step.Within R) where
  readPack := readPack_keeps
  readRules id := Action.Keeps.get.bind fun s => .pure (s.rulesOf id)
  convert _ _ _ := trivial
  merge _ := trivial
  now := trivial
  today := trivial

theorem harmless_silent : Harmless Step.Silent where
  readPack _ _ := trivial
  readRules _ := trivial
  convert _ _ _ := trivial
  merge _ := trivial
  now := trivial
  today := trivial

section
variable {P : (β : Type) → Step β → Prop}
include P

section
variable (hP : Harmless P)
include hP

theorem plan_each (setting : Setting) (request : Request) : (plan setting request).Each P := by
  refine (Work.Each.attempt (hP.readPack _ _)).bind fun found => ?_
  rcases found with - | ⟨pack, documents⟩
  · exact .throw _
  · dsimp only
    split
    · exact .throw_bind _ _
    · exact (Work.Each.lift _).bind fun _ => (Work.Each.lift _).bind fun _ => .pure _

theorem renderJob_each (setting : Setting) (p : Plan) (j : Job) :
    (renderJob setting p j).Each P := by
  refine (Work.Each.lift _).bind fun template => ?_
  refine (Work.Each.attempt (hP.readRules j.document.id)).bind fun rules => ?_
  exact (Work.Each.ask hP.today).bind fun _ => .lift _

end

theorem mergeAll_each (hmerge : ∀ pdfs, P _ (.merge pdfs)) (code : String)
    (pdfs : List ByteArray) : (mergeAll code pdfs).Each P := by
  match pdfs with
  | [] => exact .throw _
  | [_] => exact .pure _
  | _ :: _ :: _ => exact .attempt (hmerge _)

variable (hP : Harmless P) (hartifact : ∀ a, P _ (.store (insertArtifact a)))
  (hitem : ∀ item, P _ (.store (insertItem item)))
  (hfinalize : ∀ id pdfName pdf checksum, P _ (.store (finalize id pdfName pdf checksum)))
  (hfailed : ∀ id error, P _ (.store (markFailed id error)))

include hP hitem in
theorem convertJobs_each (setting : Setting) (p : Plan) (artifact : Id) (js : List Job) :
    (convertJobs setting p artifact js).Each P := by
  induction js with
  | nil => exact .pure _
  | cons j js ih =>
    refine Work.Each.bind ?_ fun _ => ih.bind fun _ => .pure _
    refine (renderJob_each hP setting p j).bind fun xlsx => ?_
    refine (Work.Each.attempt (hP.convert _ _ _)).bind fun pdf => ?_
    exact (Work.Each.attempt (hitem _)).bind fun _ => .pure _

include hP hitem hfinalize in
theorem renderArtifact_each (setting : Setting) (p : Plan) (js : List Job) (artifact : Id) :
    (renderArtifact setting p js artifact).Each P := by
  refine (convertJobs_each hP hitem setting p artifact js).bind fun pdfs => ?_
  refine (mergeAll_each hP.merge _ _).bind fun pdf => ?_
  exact (Work.Each.ask hP.now).bind fun now => .attempt (hfinalize _ _ _ _)

include hP hartifact hitem hfinalize hfailed in
/-- All steps of generation have a harmless property that its four changes of the store have. -/
theorem generate_each (setting : Setting) (request : Request) :
    (generate setting request).Each P := by
  refine (plan_each hP setting request).bind fun p => (Work.Each.lift _).bind fun js => ?_
  refine (Work.Each.ask hP.now).bind fun now => ?_
  refine (Work.Each.attempt (hartifact _)).bind fun artifact => ?_
  refine (renderArtifact_each hP hitem hfinalize setting p js artifact.id).tryCatch fun e => ?_
  exact (Work.Each.ask (hfailed _ _)).bind fun _ => .throw _

end

/-- Generation uploads nothing. -/
theorem silent_generate (setting : Setting) (request : Request) :
    (generate setting request).Each Step.Silent :=
  generate_each harmless_silent (fun _ => trivial) (fun _ => trivial) (fun _ _ _ _ => trivial)
    (fun _ _ => trivial) setting request

/-- Generation is within every relation that its four changes of the store are within. -/
theorem generate_within {R : Store → Store → Prop} [IsPreorder Store R]
    (hartifact : ∀ a, (insertArtifact a).Keeps R) (hitem : ∀ item, (insertItem item).Keeps R)
    (hfinalize : ∀ id pdfName pdf checksum, (finalize id pdfName pdf checksum).Keeps R)
    (hfailed : ∀ id error, (markFailed id error).Keeps R) (setting : Setting)
    (request : Request) : (generate setting request).Within R :=
  generate_each (harmless_within R) hartifact hitem hfinalize hfailed setting request

/-- Generation leaves documents, rules and versions alone. -/
theorem quiet_generate (setting : Setting) (request : Request) :
    (generate setting request).Within Quiet :=
  generate_within quiet_insertArtifact quiet_insertItem quiet_finalize quiet_markFailed setting
    request

end Generation

/-! ## Delivery -/

namespace Delivery

variable {R : Store → Store → Prop} [IsPreorder Store R]

omit [IsPreorder Store R] in
theorem deliver_within (options : Resolved) (a : Artifact) : (deliver options a).Within R := by
  unfold deliver
  split
  · exact .throw _
  · dsimp only
    split
    · exact .throw_bind _ _
    · exact (Work.Each.attempt trivial).bind fun _ => .pure _

section
variable (houtcome : ∀ a, (recordOutcome a).Keeps R)
include houtcome

omit [IsPreorder Store R] in
theorem processOne_within (options : Resolved) (a : Artifact) :
    (processOne options a).Within R := by
  refine Work.Each.bind (.answer (deliver_within options a)) fun result => ?_
  exact (Work.Each.attempt (houtcome _)).bind fun _ => .pure _

omit [IsPreorder Store R] in
theorem processAll_within (options : Resolved) (as : List Artifact) (report : Report) :
    (processAll options as report).Within R := by
  induction as generalizing report with
  | nil => exact .pure _
  | cons a as ih => exact (processOne_within houtcome options a).bind fun _ => ih _

/-- Delivery is within every relation that noting an outcome is within. -/
theorem process_within (options : Options) : (process options).Within R := by
  refine (Work.Each.attempt (Action.Keeps.get.bind fun _ => .lift _)).bind fun artifacts => ?_
  exact processAll_within houtcome _ artifacts .empty

end

/-- Delivery leaves documents, rules and versions alone. -/
theorem quiet_process (options : Options) : (process options).Within Quiet :=
  process_within quiet_recordOutcome options

end Delivery

end Waybill
