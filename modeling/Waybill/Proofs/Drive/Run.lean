/-
  Runs of the drive's client.

  What a request is answered with, what the clock tells and which names are fresh is up to the
  outside, which may answer differently every time: an answer may depend on everything that
  happened before.

  * `Incident` is a call of the client with its answer, `Exchange` a request with its answer,
    `Outside` gives the answers;
  * `Client` is the token that is kept with what happened so far;
  * `Session.on` runs a session; it ends with an answer or an error, or the program crashes;
  * `Attests`: the answers in what happened are those of the outside.

  Statements: `on_bind`, `on_send`, `on_outcome` and so on (a run follows the steps of the session),
  `attests_on` (a run adds to what happened, and makes up no answer).
-/
import Mathlib
import Waybill.Drive.Client

namespace Waybill.Drive

/-! ## What happens -/

/-- A request and its answer. -/
structure Exchange where
  request : Request
  answer : Except DriveError Reply

/-- A call of the client with its answer. -/
inductive Incident where
  | sent (x : Exchange)
  | now (time : Nat)
  | named (name : String)

/-- The requests that were sent, with their answers. -/
def exchanges (past : List Incident) : List Exchange :=
  past.filterMap fun
    | .sent x => some x
    | _ => none

@[simp] theorem exchanges_append (past more : List Incident) :
    exchanges (past ++ more) = exchanges past ++ exchanges more :=
  List.filterMap_append

@[simp] theorem exchanges_nil : exchanges [] = [] := rfl

@[simp] theorem exchanges_sent (x : Exchange) (past : List Incident) :
    exchanges (.sent x :: past) = x :: exchanges past := rfl

@[simp] theorem exchanges_now (time : Nat) (past : List Incident) :
    exchanges (.now time :: past) = exchanges past := rfl

@[simp] theorem exchanges_named (name : String) (past : List Incident) :
    exchanges (.named name :: past) = exchanges past := rfl

/-- What answers the calls, in view of what happened before. -/
structure Outside where
  send : List Incident → Request → Except DriveError Reply
  now : List Incident → Nat
  freshName : List Incident → String

/-- The answer to a call with what has happened then, or what had happened when the program ended. -/
def Outside.answer (o : Outside) :
    Program.Handler Call (StateT (List Incident) (Except (List Incident)))
  | _, .send r => fun past => .ok (o.send past r, past ++ [.sent ⟨r, o.send past r⟩])
  | _, .now => fun past => .ok (o.now past, past ++ [.now (o.now past)])
  | _, .freshName => fun past => .ok (o.freshName past, past ++ [.named (o.freshName past)])
  | _, .crash => fun past => .error past

/-! ## Clients -/

/-- The token that is kept, and what happened so far. -/
structure Client where
  kept : Option Token
  past : List Incident

/-- The client after some more incidents. -/
def Client.after (c : Client) (more : List Incident) : Client := { c with past := c.past ++ more }

@[simp] theorem Client.kept_after (c : Client) (more : List Incident) :
    (c.after more).kept = c.kept := rfl

@[simp] theorem Client.past_after (c : Client) (more : List Incident) :
    (c.after more).past = c.past ++ more := rfl

@[simp] theorem Client.after_nil (c : Client) : c.after [] = c := by
  simp [after]

@[simp] theorem Client.after_after (c : Client) (more rest : List Incident) :
    (c.after more).after rest = c.after (more ++ rest) := by
  simp [after]

/-- How a run comes to its end. -/
inductive Outcome (ε α : Type) where
  | ended (result : Except ε α) (c : Client)
  | crashed (past : List Incident)

/-- What has happened at the end. -/
def Outcome.past {ε α : Type} : Outcome ε α → List Incident
  | ended _ c => c.past
  | crashed past => past

/-! ## Runs -/

namespace Session

variable {ε δ α β : Type} {o : Outside} {c : Client}

/-- The end of a run, from what is left of it. -/
def outcomeOf :
    Except (List Incident) ((Except ε α × Option Token) × List Incident) → Outcome ε α
  | .ok ((result, kept), past) => .ended result ⟨kept, past⟩
  | .error past => .crashed past

/-- Runs a session of a client. -/
def on (s : Session ε α) (o : Outside) (c : Client) : Outcome ε α :=
  outcomeOf (Program.run o.answer (s.run.run c.kept) c.past)

theorem on_pure (a : α) : (pure a : Session ε α).on o c = .ended (.ok a) c := rfl

theorem on_lift (x : Except ε α) : (liftM x : Session ε α).on o c = .ended x c := rfl

theorem on_get : (get : Session ε (Option Token)).on o c = .ended (.ok c.kept) c := rfl

theorem on_send (r : Request) : (Session.ask (.send r) : Session ε _).on o c =
    .ended (.ok (o.send c.past r)) (c.after [.sent ⟨r, o.send c.past r⟩]) := rfl

theorem on_now : (Session.ask .now : Session ε _).on o c =
    .ended (.ok (o.now c.past)) (c.after [.now (o.now c.past)]) := rfl

theorem on_freshName : (Session.ask .freshName : Session ε _).on o c =
    .ended (.ok (o.freshName c.past)) (c.after [.named (o.freshName c.past)]) := rfl

theorem on_crash : (Session.ask .crash : Session ε _).on o c = .crashed c.past := rfl

theorem on_bind (s : Session ε α) (f : α → Session ε β) :
    (s >>= f).on o c = match s.on o c with
      | .ended (.ok a) c' => (f a).on o c'
      | .ended (.error e) c' => .ended (.error e) c'
      | .crashed past => .crashed past := by
  let next := fun p : Except ε α × Option Token => (ExceptT.bindCont f p.1).run p.2
  have h := congrFun (Program.run_bind o.answer (s.run.run c.kept) next) c.past
  refine (congrArg outcomeOf h).trans ?_
  -- what is left of the first session decides how the second one starts
  change outcomeOf (Program.run o.answer (s.run.run c.kept) c.past >>= fun left =>
    Program.run o.answer (next left.1) left.2) = _
  unfold on
  rcases Program.run o.answer (s.run.run c.kept) c.past with past | ⟨⟨e | a, kept⟩, past⟩ <;> rfl

section
variable {s : Session ε α} {f : α → Session ε β} {c' : Client}

theorem on_bind_of_ok {a : α} (h : s.on o c = .ended (.ok a) c') :
    (s >>= f).on o c = (f a).on o c' := by
  rw [on_bind, h]

theorem on_bind_of_error {e : ε} (h : s.on o c = .ended (.error e) c') :
    (s >>= f).on o c = .ended (.error e) c' := by
  rw [on_bind, h]

theorem on_bind_of_crashed {past : List Incident} (h : s.on o c = .crashed past) :
    (s >>= f).on o c = .crashed past := by
  rw [on_bind, h]

end

theorem on_lift_bind_of_ok {x : Except ε α} {f : α → Session ε β} {a : α} (h : x = .ok a) :
    (liftM x >>= f : Session ε β).on o c = (f a).on o c := by
  rw [on_bind, on_lift, h]

theorem on_lift_bind_of_error {x : Except ε α} {f : α → Session ε β} {e : ε} (h : x = .error e) :
    (liftM x >>= f : Session ε β).on o c = .ended (.error e) c := by
  rw [on_bind, on_lift, h]

/-- A session of which the result is changed at the end. -/
theorem on_map {γ : Type} (g : Except δ α → Except ε γ) (s : Session δ α) :
    Session.on (ExceptT.mk (g <$> s.run) : Session ε γ) o c = match s.on o c with
      | .ended result c' => .ended (g result) c'
      | .crashed past => .crashed past := by
  have h := congrFun (Program.run_bind o.answer (s.run.run c.kept)
    fun p => pure (g p.1, p.2)) c.past
  refine (congrArg outcomeOf h).trans ?_
  change outcomeOf (Program.run o.answer (s.run.run c.kept) c.past >>= fun left =>
    Except.ok ((g left.1.1, left.1.2), left.2)) = _
  unfold on
  rcases Program.run o.answer (s.run.run c.kept) c.past with past | ⟨⟨result, kept⟩, past⟩ <;> rfl

theorem on_causing (cause : δ → ε) (s : Session δ α) :
    (s.causing cause).on o c = match s.on o c with
      | .ended result c' => .ended (result.mapError cause) c'
      | .crashed past => .crashed past := on_map (·.mapError cause) s

theorem on_outcome (s : Session δ α) :
    (s.outcome : Session ε (Except δ α)).on o c = match s.on o c with
      | .ended result c' => .ended (.ok result) c'
      | .crashed past => .crashed past := on_map Except.ok s

end Session

/-! ## Answers -/

/-- The answer of an incident is that of the outside, in view of what happened before. -/
def Outside.Gives (o : Outside) (past : List Incident) : Incident → Prop
  | .sent x => x.answer = o.send past x.request
  | .now time => time = o.now past
  | .named name => name = o.freshName past

/-- The outside gave all the answers that were added to what happened before. -/
def Attests (o : Outside) : List Incident → List Incident → Prop
  | _, [] => True
  | past, i :: more => o.Gives past i ∧ Attests o (past ++ [i]) more

/-- Every request that was added has its answer from the outside. -/
theorem Attests.exists_answer {o : Outside} {past more : List Incident} (h : Attests o past more)
    {x : Exchange} (hx : .sent x ∈ more) : ∃ before, x.answer = o.send before x.request := by
  induction more generalizing past with
  | nil => cases hx
  | cons i more ih =>
    rcases List.mem_cons.1 hx with rfl | hx
    · exact ⟨past, h.1⟩
    · exact ih h.2 hx

/-- What has happened when a program ends. -/
def pastOf {α : Type} : Except (List Incident) (α × List Incident) → List Incident
  | .ok (_, past) => past
  | .error past => past

theorem attests_run {α : Type} (o : Outside) (p : Program Call α) (past : List Incident) :
    ∃ more, pastOf (Program.run o.answer p past) = past ++ more ∧ Attests o past more := by
  induction p generalizing past with
  | done a => exact ⟨[], (List.append_nil past).symm, trivial⟩
  | call call next ih =>
    -- every call but the crash adds one incident, and the program goes on with its answer
    cases call with
    | send r =>
      obtain ⟨more, hpast, hmore⟩ := ih (o.send past r) (past ++ [.sent ⟨r, o.send past r⟩])
      exact ⟨_ :: more, hpast.trans (List.append_assoc ..), rfl, hmore⟩
    | now =>
      obtain ⟨more, hpast, hmore⟩ := ih (o.now past) (past ++ [.now (o.now past)])
      exact ⟨_ :: more, hpast.trans (List.append_assoc ..), rfl, hmore⟩
    | freshName =>
      obtain ⟨more, hpast, hmore⟩ := ih (o.freshName past) (past ++ [.named (o.freshName past)])
      exact ⟨_ :: more, hpast.trans (List.append_assoc ..), rfl, hmore⟩
    | crash => exact ⟨[], (List.append_nil past).symm, trivial⟩

/-- **A run makes up no answer.** -/
theorem attests_on {ε α : Type} (s : Session ε α) (o : Outside) (c : Client) :
    ∃ more, (s.on o c).past = c.past ++ more ∧ Attests o c.past more := by
  have h := attests_run o (s.run.run c.kept) c.past
  have hpast : (s.on o c).past = pastOf (Program.run o.answer (s.run.run c.kept) c.past) := by
    unfold Session.on
    rcases Program.run o.answer (s.run.run c.kept) c.past with past | ⟨⟨result, kept⟩, past⟩ <;> rfl
  rw [hpast]
  exact h

end Waybill.Drive
