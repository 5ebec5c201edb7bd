/-
  The secret of the settings stays between the client and the token endpoint.

  Two clients whose settings differ in the secret alone are compared.  The second one runs the
  program of the first with another secret in its requests for tokens, and an outside that does not
  look at the secret cannot tell the two apart.

  * `Request.withSecret` is a request with another secret; `Session.withSecret` is a session that
    sends its requests so;
  * `Outside.Blind`: the answers do not depend on the secret;
  * `Errand` is a call of the client, `perform` makes some in order;
  * `Request.Alike`: the requests differ in their secret parts at most.

  Statements: `convert_withSecret`, `upload_withSecret` and `deleteItem_withSecret` (the program
  with another secret in the settings), `on_withSecret` (its runs), `secret_stays_hidden`, and
  `Script.blind` (answers that are settled beforehand do not look at the secret).
-/
import Mathlib
import Waybill.Proofs.Drive.Freshness

namespace Waybill

/-! ## Programs with other calls -/

namespace Program

variable {Call : Type → Type 1} {α β : Type}

/-- The program that makes other calls, and goes on with their answers as before. -/
def mapCalls (f : (γ : Type) → Call γ → Call γ) : Program Call α → Program Call α
  | .done a => .done a
  | .call c next => .call (f _ c) fun answer => (next answer).mapCalls f

theorem mapCalls_bind (f : (γ : Type) → Call γ → Call γ) (p : Program Call α)
    (next : α → Program Call β) :
    (p >>= next).mapCalls f = p.mapCalls f >>= fun a => (next a).mapCalls f := by
  induction p with
  | done a => rfl
  | call c rest ih => exact congrArg (Program.call (f _ c)) (funext ih)

end Program

namespace Drive

/-! ## Another secret -/

/-- The request with another secret, which only the form of a request for a token tells. -/
def Request.withSecret (secret : String) (r : Request) : Request :=
  if r.stage = .token ∧ r.method = .post then
    { r with form := r.form.map fun p => if p.1 = "client_secret" then (p.1, secret) else p }
  else r

/-- The exchange with another secret in its request. -/
def Exchange.withSecret (secret : String) (x : Exchange) : Exchange :=
  { x with request := x.request.withSecret secret }

/-- The incident with another secret, if it is a request. -/
def Incident.withSecret (secret : String) : Incident → Incident
  | .sent x => .sent (x.withSecret secret)
  | .now time => .now time
  | .named name => .named name

/-- The call with another secret, if it sends a request. -/
def Call.withSecret (secret : String) : (β : Type) → Call β → Call β
  | _, .send r => .send (r.withSecret secret)
  | _, .now => .now
  | _, .freshName => .freshName
  | _, .crash => .crash

/-- The client with another secret in all that happened. -/
def Client.withSecret (secret : String) (c : Client) : Client :=
  { c with past := c.past.map (·.withSecret secret) }

/-- The end of a run with another secret in all that happened. -/
def Outcome.withSecret {ε α : Type} (secret : String) : Outcome ε α → Outcome ε α
  | ended result c => ended result (c.withSecret secret)
  | crashed past => crashed (past.map (·.withSecret secret))

/-- The answers do not depend on the secret in the requests. -/
structure Outside.Blind (o : Outside) : Prop where
  send : ∀ secret past r,
    o.send (past.map (·.withSecret secret)) (r.withSecret secret) = o.send past r
  now : ∀ secret past, o.now (past.map (·.withSecret secret)) = o.now past
  freshName : ∀ secret past, o.freshName (past.map (·.withSecret secret)) = o.freshName past

variable {secret : String}

@[simp] theorem Request.url_withSecret (r : Request) : (r.withSecret secret).url = r.url := by
  unfold withSecret
  split <;> rfl

theorem exchanges_map_withSecret (past : List Incident) :
    exchanges (past.map (·.withSecret secret)) = (exchanges past).map (·.withSecret secret) := by
  induction past with
  | nil => rfl
  | cons i past ih =>
    cases i with
    | sent x => exact congrArg (x.withSecret secret :: ·) ih
    | now time => exact ih
    | named name => exact ih

/-! ## Sessions with another secret -/

namespace Session

variable {ε δ α β : Type}

/-- The session that sends its requests with another secret. -/
def withSecret (secret : String) (s : Session ε α) : Session ε α :=
  ExceptT.mk fun kept => (s.run.run kept).mapCalls (Call.withSecret secret)

theorem withSecret_pure (a : α) : (pure a : Session ε α).withSecret secret = pure a := rfl

theorem withSecret_throw (e : ε) : (throw e : Session ε α).withSecret secret = throw e := rfl

theorem withSecret_lift (x : Except ε α) :
    (liftM x : Session ε α).withSecret secret = liftM x := by
  cases x <;> rfl

theorem withSecret_ite (p : Prop) [Decidable p] (s t : Session ε α) :
    (if p then s else t).withSecret secret =
      if p then s.withSecret secret else t.withSecret secret :=
  apply_ite ..

theorem withSecret_ask (call : Call α) :
    (ask call : Session ε α).withSecret secret = ask (call.withSecret secret) := rfl

theorem withSecret_bind (s : Session ε α) (f : α → Session ε β) :
    (s >>= f).withSecret secret = s.withSecret secret >>= fun a => (f a).withSecret secret := by
  funext kept
  refine (Program.mapCalls_bind _ (s.run.run kept) _).trans ?_
  refine congrArg (Program.bind _) (funext fun left => ?_)
  rcases left with ⟨e | a, kept'⟩ <;> rfl

theorem withSecret_map {γ : Type} (g : Except δ α → Except ε γ) (s : Session δ α) :
    Session.withSecret secret (ExceptT.mk (g <$> s.run) : Session ε γ) =
      ExceptT.mk (g <$> (s.withSecret secret).run) := by
  funext kept
  exact Program.mapCalls_bind _ (s.run.run kept) _

theorem withSecret_causing (cause : δ → ε) (s : Session δ α) :
    (s.causing cause).withSecret secret = (s.withSecret secret).causing cause :=
  withSecret_map (·.mapError cause) s

theorem withSecret_outcome (s : Session δ α) :
    (s.outcome : Session ε (Except δ α)).withSecret secret = (s.withSecret secret).outcome :=
  withSecret_map Except.ok s

end Session

/-! ## The client with another secret -/

section
variable {cfg : Config} {timeout : Nat}

/-- The client's check of the settings does not tell one filled secret from another. -/
theorem Config.preflight_secret (h : ¬Text.isBlankText cfg.secret) (h' : ¬Text.isBlankText secret) :
    Config.preflight { cfg with secret } = cfg.preflight := by
  have hmissing : Config.missing { cfg with secret } = cfg.missing := by
    simp only [Config.missing, List.filter_cons, h, h']
    split <;> split <;> rfl
  have hcheck : Config.check { cfg with secret } = cfg.check := by
    simp only [Config.check, hmissing]
  simp only [Config.preflight, hcheck]

theorem send_withSecret (r : Request) :
    (send r).withSecret secret = send (r.withSecret secret) := by
  unfold send
  simp only [Session.withSecret_bind, Session.withSecret_lift, Session.withSecret_ask,
    Call.withSecret, Request.url_withSecret]

theorem keepToken_withSecret (value : String) (lifetime : Nat) :
    (keepToken value lifetime).withSecret secret = keepToken value lifetime := by
  unfold keepToken
  rw [Session.withSecret_bind]
  refine congrArg _ (funext fun now => ?_)
  split
  · rw [Session.withSecret_bind]
    exact congrArg _ (funext fun never => nomatch never)
  · rfl

theorem keptToken_withSecret :
    (keptToken cfg).withSecret secret = keptToken { cfg with secret } := by
  unfold keptToken
  split
  · rfl
  · rw [Session.withSecret_bind]
    refine congrArg _ (funext fun kept => ?_)
    cases kept with
    | none => rfl
    | some token => rfl

theorem newToken_withSecret :
    (newToken cfg timeout).withSecret secret = newToken { cfg with secret } timeout := by
  unfold newToken
  simp only [Session.withSecret_bind, Session.withSecret_lift, send_withSecret]
  simp only [Session.withSecret_ite, Session.withSecret_bind, keepToken_withSecret]
  rfl

theorem accessToken_withSecret :
    (accessToken cfg timeout).withSecret secret = accessToken { cfg with secret } timeout := by
  unfold accessToken
  rw [Session.withSecret_bind, keptToken_withSecret]
  refine congrArg _ (funext fun kept => ?_)
  cases kept with
  | none => exact newToken_withSecret
  | some token => rfl

theorem putContent_withSecret (token path : String) (bytes : ByteArray) (kind : String) :
    (putContent cfg token path bytes kind timeout).withSecret secret =
      putContent { cfg with secret } token path bytes kind timeout := by
  unfold putContent
  simp only [Session.withSecret_bind, Session.withSecret_lift, send_withSecret]
  rfl

theorem exportPdf_withSecret (token item : String) :
    (exportPdf cfg token item timeout).withSecret secret =
      exportPdf { cfg with secret } token item timeout := by
  unfold exportPdf
  simp only [Session.withSecret_bind, Session.withSecret_lift, send_withSecret]
  rfl

theorem deleteItem_withSecret {ε : Type} (token item : String) :
    (deleteItem cfg token item timeout : Session ε Unit).withSecret secret =
      deleteItem { cfg with secret } token item timeout := by
  unfold deleteItem
  simp only [Session.withSecret_bind, Session.withSecret_outcome, Session.withSecret_lift,
    send_withSecret]
  rfl

theorem store_withSecret (h : ¬Text.isBlankText cfg.secret) (h' : ¬Text.isBlankText secret)
    (xlsx : ByteArray) (name : String) :
    (store cfg xlsx name timeout).withSecret secret =
      store { cfg with secret } xlsx name timeout := by
  unfold store
  simp only [Session.withSecret_bind, Session.withSecret_lift, Config.preflight_secret h h',
    accessToken_withSecret, putContent_withSecret]
  rfl

theorem convert_withSecret (h : ¬Text.isBlankText cfg.secret) (h' : ¬Text.isBlankText secret)
    (xlsx : ByteArray) (name : String) :
    (convert cfg xlsx name timeout).withSecret secret =
      convert { cfg with secret } xlsx name timeout := by
  unfold convert
  split
  · rfl
  · dsimp only
    split
    · rfl
    · simp only [Session.withSecret_bind, Session.withSecret_causing, Session.withSecret_outcome,
        Session.withSecret_lift, Session.withSecret_ite, Session.withSecret_throw,
        Session.withSecret_pure, store_withSecret h h', exportPdf_withSecret, deleteItem_withSecret]

theorem upload_withSecret (h : ¬Text.isBlankText cfg.secret) (h' : ¬Text.isBlankText secret)
    (path : String) (pdf : ByteArray) :
    (upload cfg path pdf timeout).withSecret secret =
      upload { cfg with secret } path pdf timeout := by
  unfold upload
  simp only [Session.withSecret_bind, Session.withSecret_causing, Session.withSecret_lift,
    Config.preflight_secret h h', accessToken_withSecret, putContent_withSecret]

end

/-! ## Runs with another secret -/

section
variable {o : Outside} {c : Client} {ε α : Type}

/-- Whoever does not look at the secret gives the program the same answers. -/
theorem run_withSecret (ho : o.Blind) (p : Program Call α) (past : List Incident) :
    Program.run o.answer (p.mapCalls (Call.withSecret secret)) (past.map (·.withSecret secret)) =
      match Program.run o.answer p past with
      | .ok (a, past') => .ok (a, past'.map (·.withSecret secret))
      | .error past' => .error (past'.map (·.withSecret secret)) := by
  induction p generalizing past with
  | done a => rfl
  | call call next ih =>
    have hnext (answer) (i : Incident) := ih answer (past ++ [i])
    simp only [List.map_append, List.map_cons, List.map_nil] at hnext
    cases call with
    | send r =>
      refine Eq.trans ?_ (hnext (o.send past r) (.sent ⟨r, o.send past r⟩))
      rw [← ho.send secret]
      rfl
    | now =>
      refine Eq.trans ?_ (hnext (o.now past) (.now (o.now past)))
      rw [← ho.now secret]
      rfl
    | freshName =>
      refine Eq.trans ?_ (hnext (o.freshName past) (.named (o.freshName past)))
      rw [← ho.freshName secret]
      rfl
    | crash => rfl

/-- **A run with another secret** is the same run, but for the secret that is sent. -/
theorem on_withSecret (ho : o.Blind) (s : Session ε α) (c : Client) :
    (s.withSecret secret).on o (c.withSecret secret) = (s.on o c).withSecret secret := by
  unfold Session.on
  refine (congrArg Session.outcomeOf (run_withSecret ho (s.run.run c.kept) c.past)).trans ?_
  rcases Program.run o.answer (s.run.run c.kept) c.past with past | ⟨⟨result, kept⟩, past⟩ <;> rfl

end

/-! ## Sequences of calls -/

/-- What a call of the client gave back. -/
inductive Returned where
  | converted (result : Except ConversionError ByteArray)
  | uploaded (result : Except DeliveryError Unit)
  | deleted

/-- A call of the client. -/
inductive Errand where
  | convert (xlsx : ByteArray) (name : String) (timeout : Nat)
  | upload (path : String) (pdf : ByteArray) (timeout : Nat)
  | delete (token item : String) (timeout : Nat)

/-- The call as a session, which has no errors of its own. -/
def Errand.session (cfg : Config) : Errand → Session Empty Returned
  | convert xlsx name timeout => do
    return .converted (← (Drive.convert cfg xlsx name timeout).outcome)
  | upload path pdf timeout => do
    return .uploaded (← (Drive.upload cfg path pdf timeout).outcome)
  | delete token item timeout => do
    deleteItem cfg token item timeout
    return .deleted

/-- What a run gave back; one that crashed gave nothing. -/
def Outcome.returned? {α : Type} : Outcome Empty α → Option α
  | .ended (.ok a) _ => some a
  | .crashed _ => none

/-- Makes some calls, one after the other: what each gave back, and the client after them. -/
def perform (cfg : Config) (o : Outside) : List Errand → Client → List (Option Returned) × Client
  | [], c => ([], c)
  | errand :: errands, c =>
    let out := (errand.session cfg).on o c
    let rest := perform cfg o errands (out.client c)
    (out.returned? :: rest.1, rest.2)

section
variable {cfg : Config}

theorem Errand.session_withSecret (h : ¬Text.isBlankText cfg.secret)
    (h' : ¬Text.isBlankText secret) (errand : Errand) :
    (errand.session cfg).withSecret secret = errand.session { cfg with secret } := by
  cases errand with
  | convert xlsx name timeout =>
    simp only [session, Session.withSecret_bind, Session.withSecret_outcome,
      Session.withSecret_pure, convert_withSecret h h']
  | upload path pdf timeout =>
    simp only [session, Session.withSecret_bind, Session.withSecret_outcome,
      Session.withSecret_pure, upload_withSecret h h']
  | delete token item timeout =>
    simp only [session, Session.withSecret_bind, Session.withSecret_pure, deleteItem_withSecret]

theorem perform_withSecret (h : ¬Text.isBlankText cfg.secret) (h' : ¬Text.isBlankText secret)
    {o : Outside} (ho : o.Blind) (errands : List Errand) (c : Client) :
    perform { cfg with secret } o errands (c.withSecret secret) =
      ((perform cfg o errands c).1, (perform cfg o errands c).2.withSecret secret) := by
  induction errands generalizing c with
  | nil => rfl
  | cons errand errands ih =>
    have hon : (errand.session { cfg with secret }).on o (c.withSecret secret) =
        ((errand.session cfg).on o c).withSecret secret := by
      rw [← errand.session_withSecret h h', on_withSecret ho]
    have hclient (out : Outcome Empty Returned) :
        (out.withSecret secret).client (c.withSecret secret) =
          (out.client c).withSecret secret := by
      cases out <;> rfl
    have hreturned (out : Outcome Empty Returned) :
        (out.withSecret secret).returned? = out.returned? := by
      rcases out with ⟨e | a, c'⟩ | past
      · cases e
      · rfl
      · rfl
    simp only [perform, hon, hclient, hreturned, ih]

end

/-! ## What is shown -/

/-- The requests differ at most in their secret parts: the token, the values of the form, and the
    body but for its length. -/
structure Request.Alike (r r' : Request) : Prop where
  stage : r.stage = r'.stage
  method : r.method = r'.method
  url : r.url = r'.url
  timeout : r.timeout = r'.timeout
  contentType : r.contentType = r'.contentType
  bearer : r.bearer.isSome = r'.bearer.isSome
  names : r.form.map (·.1) = r'.form.map (·.1)
  size : r.body.size = r'.body.size

theorem Request.Alike.shown {r r' : Request} (h : r.Alike r') : r.shown = r'.shown := by
  have hbearer : (r.bearer.map fun _ => "\"<redacted>\"") =
      r'.bearer.map fun _ => "\"<redacted>\"" := by
    have := h.bearer
    revert this
    cases r.bearer <;> cases r'.bearer <;> simp
  have hnames : (r.form.map fun p => Text.quoted p.1) = r'.form.map fun p => Text.quoted p.1 := by
    simpa only [List.map_map, Function.comp_def] using congrArg (List.map Text.quoted) h.names
  simp only [Request.shown, h.stage, h.method, h.url, h.timeout, h.contentType, h.size, hbearer,
    hnames]

theorem Request.alike_withSecret (r : Request) : (r.withSecret secret).Alike r := by
  unfold withSecret
  split
  · refine ⟨rfl, rfl, rfl, rfl, rfl, rfl, ?_, rfl⟩
    rw [List.map_map]
    refine List.map_congr_left fun p _ => ?_
    dsimp only [Function.comp_apply]
    split <;> rfl
  · exact ⟨rfl, rfl, rfl, rfl, rfl, rfl, rfl, rfl⟩

/-- **The secret stays hidden.**  Two clients whose settings differ in the secret alone, which is
    filled in both, give back the same for the same calls, whatever the outside answers, as long as
    it does not look at the secret.  They send the same requests but for the secret in those for a
    token.  What is shown of the requests and of the settings, and the settings as a value, are the
    same; and nothing that is shown of a request tells its secret parts. -/
theorem secret_stays_hidden (cfg : Config) (secret : String) (h : ¬Text.isBlankText cfg.secret)
    (h' : ¬Text.isBlankText secret) (o : Outside) (ho : o.Blind) (errands : List Errand) :
    (perform { cfg with secret } o errands ⟨none, []⟩).1 = (perform cfg o errands ⟨none, []⟩).1 ∧
      exchanges (perform { cfg with secret } o errands ⟨none, []⟩).2.past =
        (exchanges (perform cfg o errands ⟨none, []⟩).2.past).map (·.withSecret secret) ∧
      (exchanges (perform { cfg with secret } o errands ⟨none, []⟩).2.past).map (·.request.shown) =
        (exchanges (perform cfg o errands ⟨none, []⟩).2.past).map (·.request.shown) ∧
      Config.shown { cfg with secret } = cfg.shown ∧
      Config.toJson { cfg with secret } = cfg.toJson ∧
      ∀ r r' : Request, r.Alike r' → r.shown = r'.shown := by
  have hperform : perform { cfg with secret } o errands ⟨none, []⟩ =
      ((perform cfg o errands ⟨none, []⟩).1,
        (perform cfg o errands ⟨none, []⟩).2.withSecret secret) :=
    perform_withSecret h h' ho errands ⟨none, []⟩
  have hpast : exchanges (perform { cfg with secret } o errands ⟨none, []⟩).2.past =
      (exchanges (perform cfg o errands ⟨none, []⟩).2.past).map (·.withSecret secret) := by
    rw [hperform]
    exact exchanges_map_withSecret _
  refine ⟨by rw [hperform], hpast, ?_, rfl, rfl, fun r r' => Request.Alike.shown⟩
  rw [hpast, List.map_map]
  exact List.map_congr_left fun x _ => x.request.alike_withSecret.shown

/-! ## Scripts -/

/-- Answers that are settled beforehand: the reply to each request by its number, whatever is asked,
    and what the clock and the names go on with. -/
structure Script where
  reply : Nat → Except DriveError Reply
  time : Nat → Nat
  name : Nat → String

/-- The outside that follows a script. -/
def Script.outside (s : Script) : Outside where
  send past _ := s.reply (exchanges past).length
  now past := s.time past.length
  freshName past := s.name past.length

/-- A script does not look at the secret. -/
theorem Script.blind (s : Script) : s.outside.Blind where
  send secret past r := by
    simp only [outside, exchanges_map_withSecret, List.length_map]
  now secret past := by simp only [outside, List.length_map]
  freshName secret past := by simp only [outside, List.length_map]

/-- A conversion for which everything is granted, and a deletion that is refused. -/
def sampleScript : Script where
  reply n := [
    .ok ⟨200, "\x7b\"access_token\": \"t\", \"expires_in\": 120\x7d".toUTF8⟩,
    .ok ⟨201, "\x7b\"id\": \"item-9\"\x7d".toUTF8⟩,
    .ok ⟨200, "%PDF-1.7".toUTF8⟩].getD n (.ok ⟨403, .empty⟩)
  time n := n * 10 ^ 9
  name _ := "fresh"

theorem sample_secret_stays_hidden :
    ¬Text.isBlankText sampleConfig.secret ∧ ¬Text.isBlankText "other" ∧
    sampleScript.outside.Blind ∧
    (perform { sampleConfig with secret := "other" } sampleScript.outside
        [.convert "xlsx".toUTF8 "pack.xlsx" 5000] ⟨none, []⟩).1 =
      (perform sampleConfig sampleScript.outside
        [.convert "xlsx".toUTF8 "pack.xlsx" 5000] ⟨none, []⟩).1 := by
  have hsecret : ¬Text.isBlankText sampleConfig.secret := by decide +kernel
  have hother : ¬Text.isBlankText "other" := by decide +kernel
  exact ⟨hsecret, hother, sampleScript.blind,
    (secret_stays_hidden sampleConfig "other" hsecret hother sampleScript.outside
      sampleScript.blind [.convert "xlsx".toUTF8 "pack.xlsx" 5000]).1⟩

end Drive

end Waybill
