/-
  How the client comes by a token.

  A call either uses the token that is kept, or asks for a new one and goes on with what the answer
  holds.  All that can happen on the way is said once, by `TokenStep`; the other modules look at its
  cases and not at the program.

  * `Request.Is` tells a request by its parts; `tokenOf?` is the token that an answer holds;
  * `Stale`: the token that is kept, if any, is not used;
  * `TokenStep`: what coming by a token can end with.

  Statements: `readToken_eq_ok` (the program reads the token that the answer holds) and
  `on_accessToken` (nothing else can happen).
-/
import Mathlib
import Waybill.Proofs.Drive.Endpoint
import Waybill.Proofs.Drive.Run

namespace Waybill.Drive

/-! ## Requests and answers -/

/-- A request over the secure protocol, by its parts. -/
structure Request.Is (r : Request) (stage : Stage) (method : Method) (place : Except DriveError Url)
    (timeout : Nat) (bearer : Option String) (body : ByteArray) : Prop where
  stage : r.stage = stage
  method : r.method = method
  place : place = .ok r.url
  secure : r.url.scheme = "https"
  timeout : r.timeout = timeout
  bearer : r.bearer = bearer
  body : r.body = body

/-- A request for a token. -/
abbrev Request.AsksToken (r : Request) (cfg : Config) (timeout : Nat) : Prop :=
  r.Is .token .post cfg.tokenUrl timeout none .empty

/-- The body of an answer that tells of success. -/
def bodyOf? (answer : Except DriveError Reply) : Option ByteArray := do
  let reply ← answer.toOption
  if 200 ≤ reply.status ∧ reply.status < 300 then some reply.body else none

/-- A text of a structure that is there and not empty. -/
def filledText? (parts : Json.Parts) (i : Nat) : Option String := do
  let text ← (← parts.optional i Json.asText)
  if text = "" then none else some text

/-- The token that an answer holds, with its lifetime in seconds; one that is not told is zero. -/
def tokenOf? (answer : Except DriveError Reply) : Option (String × Nat) := do
  let parts ← (Json.ofBytes? (← bodyOf? answer)).bind (Json.parts? ["access_token", "expires_in"])
  let value ← filledText? parts 0
  let lifetime ← parts.optional 1 (Json.asNatBelow (2 ^ 64))
  return (value, lifetime.getD 0)

/-- The number of a file that an answer holds. -/
def itemOf? (answer : Except DriveError Reply) : Option String := do
  let parts ← (Json.ofBytes? (← bodyOf? answer)).bind (Json.parts? ["id"])
  filledText? parts 0

theorem bodyOf?_eq_some {answer : Except DriveError Reply} {body : ByteArray} :
    bodyOf? answer = some body ↔
      ∃ reply, answer = .ok reply ∧ reply.isSuccess ∧ reply.body = body := by
  cases answer <;> simp [bodyOf?, Except.toOption, Reply.isSuccess]

theorem accepted_eq_ok {stage : Stage} {reply r : Reply} :
    reply.accepted stage = .ok r ↔ reply.isSuccess ∧ reply = r := by
  unfold Reply.accepted
  split <;> simp_all

theorem partsOf_eq_ok {stage : Stage} {names : List String} {reply : Reply} {parts : Json.Parts} :
    partsOf stage names reply = .ok parts ↔
      (Json.ofBytes? reply.body).bind (Json.parts? names) = some parts := by
  unfold partsOf
  cases (Json.ofBytes? reply.body).bind (Json.parts? names) <;> simp

/-- A text that has to be there is there. -/
theorem required_textOf_eq_ok (stage : Stage) (reason : String) {value : String}
    {parts : Json.Parts} {i : Nat} :
    (∃ text, textOf stage parts i = .ok text ∧ required stage reason text = .ok value) ↔
      filledText? parts i = some value := by
  unfold textOf required filledText?
  rcases parts.optional i Json.asText with _ | _ | given
  · simp
  · simp
  · by_cases h : given = "" <;> simp [Option.filter_some, h]

theorem readToken_eq_ok {reply : Reply} {value : String} {lifetime : Nat} :
    readToken reply = .ok (value, lifetime) ↔ ∃ parts,
      (Json.ofBytes? reply.body).bind (Json.parts? ["access_token", "expires_in"]) = some parts ∧
      filledText? parts 0 = some value ∧
      ∃ told, parts.optional 1 (Json.asNatBelow (2 ^ 64)) = some told ∧ told.getD 0 = lifetime := by
  simp only [readToken, except_bind_eq_ok, partsOf_eq_ok]
  refine exists_congr fun parts => and_congr_right fun _ => ?_
  cases parts.optional 1 (Json.asNatBelow (2 ^ 64)) with
  | none => simp [throw, throwThe, MonadExceptOf.throw]
  | some told =>
    rw [← required_textOf_eq_ok .token "missing access_token"]
    simp only [except_bind_eq_ok]
    constructor
    · rintro ⟨text, htext, v, hv, h⟩
      obtain ⟨rfl, rfl⟩ := Prod.mk.inj (Except.ok.inj h)
      exact ⟨⟨text, htext, hv⟩, told, rfl, rfl⟩
    · rintro ⟨⟨text, htext, hv⟩, _, h, rfl⟩
      obtain rfl := Option.some.inj h
      exact ⟨text, htext, value, hv, rfl⟩

/-- **The program reads the token that the answer holds.** -/
theorem tokenRead_eq_ok {answer : Except DriveError Reply} {value : String} {lifetime : Nat} :
    (do readToken (← (← answer).accepted .token)) = .ok (value, lifetime) ↔
      tokenOf? answer = some (value, lifetime) := by
  simp only [except_bind_eq_ok, accepted_eq_ok, readToken_eq_ok, tokenOf?, Option.bind_eq_bind,
    Option.bind_eq_some_iff, bodyOf?_eq_some]
  grind

/-- **The program reads the number of the file that the answer holds.** -/
theorem itemRead_eq_ok {answer : Except DriveError Reply} {item : String} :
    (do readItem (← answer)) = .ok item ↔ itemOf? answer = some item := by
  simp only [readItem, except_bind_eq_ok, accepted_eq_ok, partsOf_eq_ok, required_textOf_eq_ok,
    itemOf?, Option.bind_eq_bind, Option.bind_eq_some_iff, bodyOf?_eq_some]
  grind

/-! ## Coming by a token -/

/-- The kept token is not used: none is kept, or the clock tells that it ends too soon. -/
inductive Stale (cfg : Config) : Option Token → List Incident → Prop
  | uncached {kept : Option Token} (hcache : ¬cfg.cacheToken) : Stale cfg kept []
  | absent (hcache : cfg.cacheToken) : Stale cfg none []
  | expiring {token : Token} {now : Nat} (hcache : cfg.cacheToken)
      (hend : ¬now + skew < token.expires) : Stale cfg (some token) [.now now]

/-- Without a cache, nobody looks at the clock. -/
theorem Stale.eq_nil {cfg : Config} {kept : Option Token} {looks : List Incident}
    (h : Stale cfg kept looks) (hcache : ¬cfg.cacheToken) : looks = [] := by
  cases h with
  | uncached => rfl
  | absent h => rfl
  | expiring h => exact absurd h hcache

/-- What coming by a token can end with. -/
inductive TokenStep (cfg : Config) (timeout : Nat) (c : Client) : Outcome DriveError String → Prop
  | reused {token : Token} {now : Nat} (hcache : cfg.cacheToken) (hkept : c.kept = some token)
      (hfresh : now + skew < token.expires) :
      TokenStep cfg timeout c (.ended (.ok token.value) (c.after [.now now]))
  | refused {looks : List Incident} {x : Exchange} {e : DriveError}
      (hstale : Stale cfg c.kept looks) (hx : x.request.AsksToken cfg timeout)
      (hnone : tokenOf? x.answer = none) :
      TokenStep cfg timeout c (.ended (.error e) (c.after (looks ++ [.sent x])))
  | received {x : Exchange} {value : String} {lifetime : Nat} (hcache : ¬cfg.cacheToken)
      (hx : x.request.AsksToken cfg timeout) (htoken : tokenOf? x.answer = some (value, lifetime)) :
      TokenStep cfg timeout c (.ended (.ok value) (c.after [.sent x]))
  | stored {looks : List Incident} {x : Exchange} {value : String} {lifetime now : Nat}
      (hcache : cfg.cacheToken) (hstale : Stale cfg c.kept looks)
      (hx : x.request.AsksToken cfg timeout) (htoken : tokenOf? x.answer = some (value, lifetime))
      (hclock : now / 10 ^ 9 + lifetime < clockEnd) :
      TokenStep cfg timeout c (.ended (.ok value)
        ⟨some ⟨value, now + lifetime * 10 ^ 9⟩, c.past ++ (looks ++ [.sent x, .now now])⟩)
  | crashed {looks : List Incident} {x : Exchange} {value : String} {lifetime now : Nat}
      (hcache : cfg.cacheToken) (hstale : Stale cfg c.kept looks)
      (hx : x.request.AsksToken cfg timeout) (htoken : tokenOf? x.answer = some (value, lifetime))
      (hclock : clockEnd ≤ now / 10 ^ 9 + lifetime) :
      TokenStep cfg timeout c (.crashed (c.past ++ (looks ++ [.sent x, .now now])))

variable {cfg : Config} {timeout : Nat} {o : Outside} {c : Client}

/-- A look at the kept token gives it, or it is not used. -/
theorem on_keptToken :
    (∃ token now, cfg.cacheToken ∧ c.kept = some token ∧ now + skew < token.expires ∧
      (keptToken cfg).on o c = .ended (.ok (some token.value)) (c.after [.now now])) ∨
    ∃ looks, Stale cfg c.kept looks ∧
      (keptToken cfg).on o c = .ended (.ok none) (c.after looks) := by
  unfold keptToken
  by_cases hcache : cfg.cacheToken
  · simp only [hcache, Bool.not_true, Bool.false_eq_true, if_false]
    rw [Session.on_bind_of_ok Session.on_get]
    cases hkept : c.kept with
    | none => exact .inr ⟨[], .absent hcache, by rw [Client.after_nil]; rfl⟩
    | some token =>
      simp only
      rw [Session.on_bind_of_ok Session.on_now, Session.on_pure]
      by_cases hfresh : o.now c.past + skew < token.expires
      · exact .inl ⟨token, _, trivial, rfl, hfresh, by rw [if_pos hfresh]⟩
      · exact .inr ⟨_, .expiring hcache hfresh, by rw [if_neg hfresh]⟩
  · refine .inr ⟨[], .uncached hcache, ?_⟩
    simp [hcache, Session.on_pure]

/-- A request over the secure protocol is sent. -/
theorem on_send {r : Request} (hsecure : r.url.scheme = "https") :
    (send r).on o c = .ended (o.send c.past r) (c.after [.sent ⟨r, o.send c.past r⟩]) := by
  unfold send
  rw [Session.on_lift_bind_of_ok (checkSecure_eq_ok (v := ()).2 hsecure),
    Session.on_bind_of_ok (Session.on_send r), Session.on_lift]

/-- A token is kept for its lifetime, or the program ends. -/
theorem on_keepToken (value : String) (lifetime : Nat) :
    ∃ now, (keepToken value lifetime).on o c =
      if clockEnd ≤ now / 10 ^ 9 + lifetime then .crashed (c.past ++ [.now now])
      else .ended (.ok ⟨⟩) ⟨some ⟨value, now + lifetime * 10 ^ 9⟩, c.past ++ [.now now]⟩ := by
  refine ⟨o.now c.past, ?_⟩
  unfold keepToken
  rw [Session.on_bind_of_ok Session.on_now]
  split
  · rw [Session.on_bind_of_crashed Session.on_crash]
    rfl
  · rfl

/-- Without a token that is read, the answer holds none. -/
theorem tokenOf?_eq_none (answer : Except DriveError Reply) {e : DriveError}
    (h : (do readToken (← (← answer).accepted .token)) = .error e) : tokenOf? answer = none := by
  refine Option.eq_none_iff_forall_ne_some.2 fun p hp => ?_
  rw [tokenRead_eq_ok.2 hp] at h
  cases h

/-- A token that was read is kept, if tokens are, and goes to the caller. -/
theorem step_of_token {looks : List Incident} {x : Exchange} {value : String} {lifetime : Nat}
    (hstale : Stale cfg c.kept looks) (hx : x.request.AsksToken cfg timeout)
    (htoken : tokenOf? x.answer = some (value, lifetime)) :
    TokenStep cfg timeout c (Session.on (do
      if cfg.cacheToken then keepToken value lifetime
      return value) o (c.after (looks ++ [.sent x]))) := by
  by_cases hcache : cfg.cacheToken
  · rw [if_pos hcache]
    obtain ⟨now, hkeep⟩ := on_keepToken (o := o) (c := c.after (looks ++ [.sent x])) value lifetime
    have hpast : (c.after (looks ++ [.sent x])).past ++ [.now now] =
        c.past ++ (looks ++ [.sent x, .now now]) := by simp
    rw [hpast] at hkeep
    by_cases hclock : clockEnd ≤ now / 10 ^ 9 + lifetime
    · rw [if_pos hclock] at hkeep
      rw [Session.on_bind_of_crashed hkeep]
      exact .crashed hcache hstale hx htoken hclock
    · rw [if_neg hclock] at hkeep
      rw [Session.on_bind_of_ok hkeep, Session.on_pure]
      exact .stored hcache hstale hx htoken (Nat.not_le.1 hclock)
  · rw [if_neg hcache, Session.on_pure]
    rw [hstale.eq_nil hcache]
    exact .received hcache hx htoken

/-- A new token is what the answer to one request holds. -/
theorem on_newToken (h : cfg.Ready) {looks : List Incident} (hstale : Stale cfg c.kept looks) :
    TokenStep cfg timeout c ((newToken cfg timeout).on o (c.after looks)) := by
  obtain ⟨url, hurl, hsecure⟩ := h.tokenUrl
  unfold newToken
  rw [Session.on_lift_bind_of_ok hurl, Session.on_bind, on_send hsecure, Client.after_after]
  generalize hr : Request.mk .token .post url timeout none none _ .empty = r
  have hx : r.AsksToken cfg timeout := by
    subst hr
    exact ⟨rfl, rfl, hurl, hsecure, rfl, rfl, rfl⟩
  generalize hanswer : o.send (c.after looks).past r = answer
  cases answer with
  | error e => exact .refused (x := ⟨r, .error e⟩) hstale hx rfl
  | ok reply =>
    simp only
    cases hread : (do readToken (← reply.accepted .token)) with
    | error e =>
      rw [Session.on_lift_bind_of_error rfl]
      exact .refused (x := ⟨r, .ok reply⟩) hstale hx (tokenOf?_eq_none (.ok reply) hread)
    | ok p =>
      rw [Session.on_lift_bind_of_ok rfl]
      exact step_of_token hstale hx (tokenRead_eq_ok.1 hread)

/-- **Nothing else can happen when a token is come by.** -/
theorem on_accessToken (h : cfg.Ready) :
    TokenStep cfg timeout c ((accessToken cfg timeout).on o c) := by
  unfold accessToken
  rcases @on_keptToken cfg o c with
    ⟨token, now, hcache, hkept, hfresh, hlook⟩ | ⟨looks, hstale, hlook⟩
  · rw [Session.on_bind_of_ok hlook]
    exact .reused hcache hkept hfresh
  · rw [Session.on_bind_of_ok hlook]
    exact on_newToken h hstale

end Waybill.Drive
