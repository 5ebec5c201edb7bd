/-
  Runs of work in a world.

  What a conversion, a merge, an upload or the clock answers is up to the surroundings, which may
  answer differently every time: the answer may depend on everything that was asked and answered
  before.

  * `Event` is a call with its answer, `Surroundings` give the answers;
  * `conversions`, `merges` and `uploads` are the events of one kind;
  * `World` is the store with the events so far, `Work.on` runs work in a world;
  * `Program.Each` and `Work.Each`: every call has a property, whatever the answers;
  * `Work.Within`: every action of the work is within a relation between stores.

  Statements: `on_bind`, `on_attempt`, `on_tryCatch` and so on (a run follows the steps of the
  work), `Work.keeps_past` (a run adds to what happened), `Work.Within.on` (a run of such work is
  within the relation), `Work.Each.uploads_eq` (a run of work without uploads adds none).
-/
import Waybill.Generation.Step
import Waybill.Proofs.Store.Action

namespace Waybill

/-! ## Calls of a program -/

namespace Program

variable {Call : Type → Type 1} {α β : Type} {P : (β : Type) → Call β → Prop}

/-- Every call that a program may make has the property. -/
def Each (P : (β : Type) → Call β → Prop) : Program Call α → Prop
  | .done _ => True
  | .call c next => P _ c ∧ ∀ answer, Each P (next answer)

theorem Each.bind {p : Program Call α} {f : α → Program Call β} (hp : p.Each P)
    (hf : ∀ a, (f a).Each P) : (p >>= f).Each P := by
  induction p with
  | done a => exact hf a
  | call c next ih => exact ⟨hp.1, fun answer => ih answer (hp.2 answer)⟩

end Program

namespace Generation

open Waybill.Drive
open Waybill.Pdf (PdfError)

/-! ## Worlds -/

/-- A call to the surroundings with its answer. -/
inductive Event where
  | convert (xlsx : ByteArray) (name : String) (timeout : Nat)
      (answer : Except ConversionError ByteArray)
  | merge (pdfs : List ByteArray) (answer : Except PdfError ByteArray)
  | upload (path : String) (pdf : ByteArray) (timeout : Nat) (answer : Except DeliveryError Unit)
  | now (answer : Calendar.Instant)
  | today (answer : Calendar.Date)

/-- A file that was to be stored on the drive, and what the drive answered. -/
structure Upload where
  path : String
  pdf : ByteArray
  timeout : Nat
  answer : Except DeliveryError Unit

/-- What was asked of the converter, and what it answered. -/
def conversions (events : List Event) :
    List (ByteArray × String × Nat × Except ConversionError ByteArray) :=
  events.filterMap fun
    | .convert xlsx name timeout answer => some (xlsx, name, timeout, answer)
    | _ => none

/-- What was asked of the merger, and what it answered. -/
def merges (events : List Event) : List (List ByteArray × Except PdfError ByteArray) :=
  events.filterMap fun
    | .merge pdfs answer => some (pdfs, answer)
    | _ => none

/-- What was asked of the drive, and what it answered. -/
def uploads (events : List Event) : List Upload :=
  events.filterMap fun
    | .upload path pdf timeout answer => some ⟨path, pdf, timeout, answer⟩
    | _ => none

@[simp] theorem conversions_append (events more : List Event) :
    conversions (events ++ more) = conversions events ++ conversions more :=
  List.filterMap_append

@[simp] theorem merges_append (events more : List Event) :
    merges (events ++ more) = merges events ++ merges more :=
  List.filterMap_append

@[simp] theorem uploads_append (events more : List Event) :
    uploads (events ++ more) = uploads events ++ uploads more :=
  List.filterMap_append

/-- What answers the calls, in view of the events before. -/
structure Surroundings where
  convert : List Event → ByteArray → String → Nat → Except ConversionError ByteArray
  merge : List Event → List ByteArray → Except PdfError ByteArray
  upload : List Event → String → ByteArray → Nat → Except DeliveryError Unit
  now : List Event → Calendar.Instant
  today : List Event → Calendar.Date

/-- The store, and what happened so far. -/
structure World where
  store : Store
  past : List Event

/-- The world after one more event. -/
def World.after (w : World) (event : Event) : World :=
  { w with past := w.past ++ [event] }

@[simp] theorem World.past_after (w : World) (event : Event) :
    (w.after event).past = w.past ++ [event] := rfl

/-- The world after more events. -/
def World.afterAll (w : World) (events : List Event) : World :=
  { w with past := w.past ++ events }

/-- The answer to a call, with the world after it. -/
def Surroundings.answer (around : Surroundings) : Program.Handler Step (StateM World)
  | _, .store action => fun w =>
    ((w.store.run action).1, { w with store := (w.store.run action).2 })
  | _, .convert xlsx name timeout => fun w =>
    let answer := around.convert w.past xlsx name timeout
    (answer, w.after (.convert xlsx name timeout answer))
  | _, .merge pdfs => fun w =>
    let answer := around.merge w.past pdfs
    (answer, w.after (.merge pdfs answer))
  | _, .upload path pdf timeout => fun w =>
    let answer := around.upload w.past path pdf timeout
    (answer, w.after (.upload path pdf timeout answer))
  | _, .now => fun w => (around.now w.past, w.after (.now (around.now w.past)))
  | _, .today => fun w => (around.today w.past, w.after (.today (around.today w.past)))

/-- The action of a step, if it has one, is within the relation. -/
def Step.Within (R : Store → Store → Prop) : (β : Type) → Step β → Prop
  | _, .store action => action.Keeps R
  | _, _ => True

/-- The step is no upload. -/
def Step.Silent : (β : Type) → Step β → Prop
  | _, .upload _ _ _ => False
  | _, _ => True

/-! ## Runs -/

namespace Work

variable {ε δ α β : Type} {around : Surroundings} {w : World}

/-- Runs work in a world; gives its answer or error, with the world after it. -/
def on (work : Work ε α) (around : Surroundings) (w : World) : Except ε α × World :=
  Program.run around.answer work.run w

theorem on_pure (a : α) : (pure a : Work ε α).on around w = (.ok a, w) := rfl

theorem on_lift (x : Except ε α) : (liftM x : Work ε α).on around w = (x, w) := by
  cases x <;> rfl

theorem on_bind (work : Work ε α) (f : α → Work ε β) :
    (work >>= f).on around w = match work.on around w with
      | (.ok a, w') => (f a).on around w'
      | (.error e, w') => (.error e, w') := by
  have h := congrFun (Program.run_bind around.answer work.run (ExceptT.bindCont f)) w
  refine h.trans ?_
  change (match work.on around w with
    | (answer, w') => Program.run around.answer (ExceptT.bindCont f answer) w') = _
  rcases work.on around w with ⟨e | a, w'⟩ <;> rfl

theorem on_bind_of_ok {work : Work ε α} {f : α → Work ε β} {a : α} {w' : World}
    (h : work.on around w = (.ok a, w')) : (work >>= f).on around w = (f a).on around w' := by
  rw [on_bind, h]

theorem on_bind_of_error {work : Work ε α} {f : α → Work ε β} {e : ε} {w' : World}
    (h : work.on around w = (.error e, w')) : (work >>= f).on around w = (.error e, w') := by
  rw [on_bind, h]

/-- What a handler makes of an answer. -/
def handled (handler : ε → Work ε α) : Except ε α → Program Step (Except ε α)
  | .ok a => pure (.ok a)
  | .error e => (handler e).run

theorem on_tryCatch (work : Work ε α) (handler : ε → Work ε α) :
    (tryCatch work handler).on around w = match work.on around w with
      | (.ok a, w') => (.ok a, w')
      | (.error e, w') => (handler e).on around w' := by
  have h := congrFun (Program.run_bind around.answer work.run (handled handler)) w
  refine Eq.trans h ?_
  change (match work.on around w with
    | (answer, w') => Program.run around.answer (handled handler answer) w') = _
  rcases work.on around w with ⟨e | a, w'⟩ <;> rfl

theorem on_tryCatch_of_ok {work : Work ε α} {handler : ε → Work ε α} {a : α} {w' : World}
    (h : work.on around w = (.ok a, w')) : (tryCatch work handler).on around w = (.ok a, w') := by
  rw [on_tryCatch, h]

theorem on_tryCatch_of_error {work : Work ε α} {handler : ε → Work ε α} {e : ε} {w' : World}
    (h : work.on around w = (.error e, w')) :
    (tryCatch work handler).on around w = (handler e).on around w' := by
  rw [on_tryCatch, h]

theorem on_answer (work : Work δ α) :
    Work.on (ExceptT.lift work.run : Work ε (Except δ α)) around w =
      (.ok (work.on around w).1, (work.on around w).2) :=
  congrFun (Program.run_bind around.answer work.run fun answer =>
    pure (Except.ok answer : Except ε (Except δ α))) w

theorem on_attempt (cause : δ → ε) (step : Step (Except δ α)) :
    (Work.attempt cause step).on around w =
      ((around.answer _ step w).1.mapError cause, (around.answer _ step w).2) := rfl

theorem on_store_of_ok {cause : StoreError → ε} {action : Action StoreError α} {a : α} {s' : Store}
    (h : action w.store = .ok (a, s')) :
    (Work.attempt cause (.store action)).on around w = (.ok a, { w with store := s' }) := by
  change ((w.store.run action).1.mapError cause, { w with store := (w.store.run action).2 }) = _
  rw [Action.run_of_ok h]
  rfl

theorem on_convert (cause : ConversionError → ε) (xlsx : ByteArray) (name : String)
    (timeout : Nat) :
    (∃ pdf, (Work.attempt cause (.convert xlsx name timeout)).on around w =
      (.ok pdf, w.after (.convert xlsx name timeout (.ok pdf)))) ∨
    ∃ e, (Work.attempt cause (.convert xlsx name timeout)).on around w =
      (.error (cause e), w.after (.convert xlsx name timeout (.error e))) := by
  change (∃ pdf, ((around.convert w.past xlsx name timeout).mapError cause, w.after (.convert _ _ _
    (around.convert w.past xlsx name timeout))) = _) ∨ ∃ e, (_, w.after (.convert _ _ _
    (around.convert w.past xlsx name timeout))) = _
  rcases around.convert w.past xlsx name timeout with e | pdf
  · exact Or.inr ⟨e, rfl⟩
  · exact Or.inl ⟨pdf, rfl⟩

theorem on_merge (cause : PdfError → ε) (pdfs : List ByteArray) :
    (∃ pdf, (Work.attempt cause (.merge pdfs)).on around w =
      (.ok pdf, w.after (.merge pdfs (.ok pdf)))) ∨
    ∃ e, (Work.attempt cause (.merge pdfs)).on around w =
      (.error (cause e), w.after (.merge pdfs (.error e))) := by
  change (∃ pdf, ((around.merge w.past pdfs).mapError cause, w.after (.merge _
    (around.merge w.past pdfs))) = _) ∨ ∃ e, (_, w.after (.merge _ (around.merge w.past pdfs))) = _
  rcases around.merge w.past pdfs with e | pdf
  · exact Or.inr ⟨e, rfl⟩
  · exact Or.inl ⟨pdf, rfl⟩

theorem on_now : (Work.ask .now : Work ε _).on around w =
    (.ok (around.now w.past), w.after (.now (around.now w.past))) := rfl

/-- What happened before a run stays as it was. -/
theorem keeps_past (work : Work ε α) (around : Surroundings) (w : World) :
    w.past <+: (work.on around w).2.past := by
  unfold on
  induction work.run generalizing w with
  | done answer => exact List.prefix_refl _
  | call c next ih =>
    have hanswer : w.past <+: (around.answer _ c w).2.past := by
      cases c with
      | store action => exact List.prefix_refl _
      | convert | merge | upload | now | today => exact List.prefix_append _ _
    exact hanswer.trans (ih _ _)

/-! ## Properties of every call -/

/-- Every call that the work may make has the property, whatever the answers are. -/
def Each (P : (β : Type) → Step β → Prop) (work : Work ε α) : Prop :=
  work.run.Each P

namespace Each

variable {P : (β : Type) → Step β → Prop}

theorem pure (a : α) : Each P (Pure.pure a : Work ε α) := trivial

theorem throw (e : ε) : Each P (MonadExcept.throw e : Work ε α) := trivial

theorem lift (x : Except ε α) : Each P (liftM x : Work ε α) := by
  cases x <;> exact trivial

theorem bind {work : Work ε α} {f : α → Work ε β} (h : work.Each P) (hf : ∀ a, (f a).Each P) :
    Each P (work >>= f) := by
  refine Program.Each.bind h fun answer => ?_
  rcases answer with e | a
  · exact trivial
  · exact hf a

theorem tryCatch {work : Work ε α} {handler : ε → Work ε α} (h : work.Each P)
    (hh : ∀ e, (handler e).Each P) : Each P (MonadExcept.tryCatch work handler) := by
  refine Program.Each.bind h fun answer => ?_
  rcases answer with e | a
  · exact hh e
  · exact trivial

/-- The answer of other work, which may be an error, is no error. -/
theorem answer {work : Work δ α} (h : work.Each P) :
    Each P (ExceptT.lift work.run : Work ε (Except δ α)) :=
  Program.Each.bind h fun _ => trivial

theorem throw_bind (e : ε) (f : α → Work ε β) : Each P ((MonadExcept.throw e : Work ε α) >>= f) :=
  trivial

theorem attempt {cause : δ → ε} {step : Step (Except δ α)} (h : P _ step) :
    Each P (Work.attempt cause step) := ⟨h, fun _ => trivial⟩

theorem ask {step : Step α} (h : P _ step) : Each P (Work.ask step : Work ε α) :=
  ⟨h, fun _ => trivial⟩

/-- A run of work without uploads adds none. -/
theorem uploads_eq {work : Work ε α} (h : work.Each Step.Silent) (around : Surroundings)
    (w : World) : uploads (work.on around w).2.past = uploads w.past := by
  unfold Work.on
  unfold Each at h
  generalize ExceptT.run work = p at h
  induction p generalizing w with
  | done a => rfl
  | call c next ih =>
    have hstep : uploads (around.answer _ c w).2.past = uploads w.past := by
      cases c with
      | upload => exact h.1.elim
      | store action => rfl
      | convert | merge | now | today => exact (uploads_append _ _).trans (List.append_nil _)
    exact (ih _ _ (h.2 _)).trans hstep

end Each

/-! ## Within a relation -/

/-- Every action of the work is within the relation, whatever the answers are. -/
def Within (R : Store → Store → Prop) (work : Work ε α) : Prop :=
  work.Each (Step.Within R)

variable {R : Store → Store → Prop}

/-- A run leaves a store within the relation. -/
theorem Within.on [IsPreorder Store R] {work : Work ε α} (h : work.Within R)
    (around : Surroundings) (w : World) : R w.store (work.on around w).2.store := by
  unfold Work.on
  unfold Within Each at h
  generalize ExceptT.run work = p at h
  induction p generalizing w with
  | done a => exact refl_of R w.store
  | call c next ih =>
    have hstep : R w.store (around.answer _ c w).2.store := by
      cases c with
      | store action => exact Action.Keeps.run h.1 w.store
      | convert | merge | upload | now | today => exact refl_of R w.store
    exact trans_of R hstep (ih _ _ (h.2 _))

end Work

end Generation

end Waybill
