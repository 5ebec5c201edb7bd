/-
  Tokens that are used again.

  The token that a client keeps is told by its past: it is the one of the last answer that held a
  token, with the time that the clock told next.  So it is settled before each call whether the call
  asks for a token, and nothing that happens after that changes what is kept.

  * `Ledger`: what the past tells about tokens, one incident after the other;
  * `Use`: a conversion or an upload, `after` is the client after it;
  * `usable`: the token that a call uses without asking.

  Statements: `settled_after` (the token that is kept is the stored one) and `tokens_are_fresh` (when
  a call asks, and which token its requests carry).
-/
import Mathlib
import Waybill.Proofs.Drive.Conversation

namespace Waybill.Drive

/-! ## Uses -/

/-- The client after a call; one that crashed leaves it the token that was kept. -/
def Outcome.client {ε α : Type} (c : Client) : Outcome ε α → Client
  | .ended _ c' => c'
  | .crashed past => ⟨c.kept, past⟩

theorem Outcome.past_client {ε α : Type} (out : Outcome ε α) (c : Client) :
    (out.client c).past = out.past := by
  cases out <;> rfl

/-- A call of a client. -/
inductive Use where
  | convert (xlsx : ByteArray) (name : String) (timeout : Nat)
  | upload (path : String) (pdf : ByteArray) (timeout : Nat)

namespace Use

/-- The time that each request of the call may take. -/
def timeout : Use → Nat
  | convert _ _ timeout => timeout
  | upload _ _ timeout => timeout

/-- The call is found fit before anything is sent. -/
def Passes (cfg : Config) : Use → Prop
  | convert xlsx name _ => Fit cfg xlsx name
  | upload _ _ _ => cfg.Ready

/-- The client after the call. -/
def after (cfg : Config) (o : Outside) (c : Client) : Use → Client
  | convert xlsx name timeout => ((Drive.convert cfg xlsx name timeout).on o c).client c
  | upload path pdf timeout => ((Drive.upload cfg path pdf timeout).on o c).client c

end Use

/-- The client after some calls, one after the other. -/
def clientAfter (cfg : Config) (o : Outside) (uses : List Use) : Client :=
  uses.foldl (fun c u => u.after cfg o c) ⟨none, []⟩

variable {cfg : Config} {timeout : Nat} {o : Outside} {c : Client} {ε α : Type}

/-! ## The ledger of tokens -/

/-- What the past tells about tokens: the one that was answered but not yet stored, with its
    lifetime, and the one that was stored last. -/
structure Ledger where
  answered : Option (String × Nat)
  stored : Option Token

namespace Ledger

/-- A token is stored at the time that the clock tells after its answer, if it can tell the end. -/
def note (l : Ledger) : Incident → Ledger
  | .sent x => if x.request.stage = .token then { l with answered := tokenOf? x.answer } else l
  | .now time =>
    match l.answered with
    | some (value, lifetime) =>
      if time / 10 ^ 9 + lifetime < clockEnd then
        ⟨none, some ⟨value, time + lifetime * 10 ^ 9⟩⟩
      else { l with answered := none }
    | none => l
  | .named _ => l

/-- What a past tells. -/
def ofPast (past : List Incident) : Ledger := past.foldl note ⟨none, none⟩

@[simp] theorem ofPast_append (past more : List Incident) :
    ofPast (past ++ more) = more.foldl note (ofPast past) := List.foldl_append

/-- Neither a file nor its name tells anything about tokens. -/
theorem foldl_note_of_later {l : Ledger} {rest : List Incident}
    (htimeless : ∀ time, .now time ∉ rest)
    (hlater : ∀ x ∈ exchanges rest, x.request.stage ≠ .token) : rest.foldl note l = l := by
  induction rest with
  | nil => rfl
  | cons i rest ih =>
    have htimeless' : ∀ time, .now time ∉ rest := fun time h =>
      htimeless time (List.mem_cons_of_mem _ h)
    cases i with
    | sent x =>
      have hx : x.request.stage ≠ .token := hlater x List.mem_cons_self
      rw [List.foldl_cons, note, if_neg hx]
      exact ih htimeless' fun y hy => hlater y (List.mem_cons_of_mem _ hy)
    | now time => exact absurd List.mem_cons_self (htimeless time)
    | named name => exact ih htimeless' hlater

end Ledger

/-- The client keeps the token that its past tells. -/
def Settled (c : Client) : Prop := Ledger.ofPast c.past = ⟨none, c.kept⟩

theorem foldl_note_of_stale {kept : Option Token} {looks : List Incident}
    (h : Stale cfg kept looks) : looks.foldl Ledger.note ⟨none, kept⟩ = ⟨none, kept⟩ := by
  cases h <;> rfl

/-- Coming by a token leaves the ledger settled. -/
theorem settled_of_tokenStep {out : Outcome DriveError String} (hcache : cfg.cacheToken)
    (h : TokenStep cfg timeout c out) (hc : Settled c) : Settled (out.client c) := by
  unfold Settled at hc ⊢
  cases h with
  | reused => simp [Outcome.client, hc, Ledger.note]
  | refused hstale hx hnone =>
    simp [Outcome.client, hc, foldl_note_of_stale hstale, Ledger.note, hx.stage, hnone]
  | received h => exact absurd hcache h
  | stored _ hstale hx htoken hclock =>
    simp [Outcome.client, hc, foldl_note_of_stale hstale, Ledger.note, hx.stage, htoken, hclock]
  | crashed _ hstale hx htoken hclock =>
    simp [Outcome.client, hc, foldl_note_of_stale hstale, Ledger.note, hx.stage, htoken,
      Nat.not_lt.2 hclock]

/-! ## The token of a call -/

/-- The token that a call uses without asking: the stored one, unless it ends too soon after the time
    at which the call begins. -/
def usable (cfg : Config) (o : Outside) (past : List Incident) : Option Token :=
  if cfg.cacheToken then
    (Ledger.ofPast past).stored.filter fun token => o.now past + skew < token.expires
  else none

/-- Which token the requests of a call carry: the usable one, or else the one that the answer to its
    first request held. -/
def UsesFresh (cfg : Config) (timeout : Nat) (usable : Option Token) (sent : List Exchange) :
    Prop :=
  match usable with
  | some token => ∀ x ∈ sent, x.Carries timeout token.value
  | none => ∃ x rest, sent = x :: rest ∧ x.request.AsksToken cfg timeout ∧
      ∀ y ∈ rest, ∃ value lifetime, tokenOf? x.answer = some (value, lifetime) ∧
        y.Carries timeout value

theorem usable_of_stale {looks rest : List Incident} (hc : cfg.cacheToken → Settled c)
    (hstale : Stale cfg c.kept looks) (hmore : Attests o c.past (looks ++ rest)) :
    usable cfg o c.past = none := by
  unfold usable
  by_cases hcache : cfg.cacheToken
  · rw [if_pos hcache, hc hcache]
    generalize c.kept = kept at hstale
    cases hstale with
    | uncached h => exact absurd hcache h
    | absent => rfl
    | expiring _ hend =>
      -- the look at the clock was the first thing that happened
      obtain rfl := hmore.1
      exact Option.filter_eq_none_iff.2 fun token htoken => by
        obtain rfl := Option.some.inj htoken
        simpa using hend
  · rw [if_neg hcache]

theorem usable_of_fresh {token : Token} {now : Nat} {rest : List Incident} (hc : Settled c)
    (hcache : cfg.cacheToken) (hkept : c.kept = some token) (hfresh : now + skew < token.expires)
    (hmore : Attests o c.past (.now now :: rest)) : usable cfg o c.past = some token := by
  obtain rfl := hmore.1
  unfold usable
  rw [if_pos hcache, hc]
  simp [hkept, Option.filter_some, hfresh]

section
variable {work : String → List Exchange → Except ε α → Prop} {out : Outcome ε α}
  {more : List Incident}

theorem usesFresh_of_callStep (hc : cfg.cacheToken → Settled c)
    (hwork : ∀ token rest result, work token rest result → ∀ x ∈ rest, x.Carries timeout token)
    (h : CallStep cfg timeout c work out) (hpast : out.past = c.past ++ more)
    (hmore : Attests o c.past more) :
    UsesFresh cfg timeout (usable cfg o c.past) (exchanges more) := by
  cases h with
  | tokenless htoken =>
    cases htoken with
    | refused hstale hx hnone =>
      obtain rfl := List.append_cancel_left hpast
      rw [usable_of_stale hc hstale hmore]
      exact ⟨_, [], by simp [exchanges_of_stale hstale], hx, by simp⟩
  | crashed htoken =>
    cases htoken with
    | crashed hcache hstale hx htoken =>
      obtain rfl := List.append_cancel_left hpast
      rw [usable_of_stale hc hstale hmore]
      exact ⟨_, [], by simp [exchanges_of_stale hstale], hx, by simp⟩
  | done htoken htimeless hrest =>
    have hcarries := hwork _ _ _ hrest
    cases htoken with
    | reused hcache hkept hfresh =>
      simp only [Outcome.past, Client.past_after, List.append_assoc, List.append_right_inj] at hpast
      subst hpast
      rw [usable_of_fresh (hc hcache) hcache hkept hfresh hmore]
      exact hcarries
    | received hcache hx htoken =>
      simp only [Outcome.past, Client.past_after, List.append_assoc, List.append_right_inj] at hpast
      subst hpast
      rw [usable, if_neg hcache]
      exact ⟨_, _, rfl, hx, fun y hy => ⟨_, _, htoken, hcarries y hy⟩⟩
    | stored hcache hstale hx htoken =>
      simp only [Outcome.past, Client.past_after, List.append_assoc, List.append_right_inj] at hpast
      subst hpast
      rw [usable_of_stale hc hstale hmore]
      exact ⟨_, _, by simp [exchanges_of_stale hstale], hx,
        fun y hy => ⟨_, _, htoken, hcarries y hy⟩⟩

theorem settled_of_callStep (hcache : cfg.cacheToken) (hc : Settled c)
    (hwork : ∀ token rest result, work token rest result → ∀ x ∈ rest, x.Carries timeout token)
    (h : CallStep cfg timeout c work out) : Settled (out.client c) := by
  cases h with
  | tokenless htoken => exact settled_of_tokenStep hcache htoken hc
  | crashed htoken => exact settled_of_tokenStep hcache htoken hc
  | @done token c' rest result htoken htimeless hrest =>
    have hc' : Settled c' := settled_of_tokenStep hcache htoken hc
    have hlater : ∀ x ∈ exchanges rest, x.request.stage ≠ .token :=
      fun x hx => (hwork _ _ _ hrest x hx).stage
    unfold Settled at hc' ⊢
    simp only [Outcome.client, Client.past_after, Ledger.ofPast_append, Client.kept_after]
    rw [Ledger.foldl_note_of_later htimeless hlater, hc']

/-- Without an answer that holds a token, the same token is kept. -/
theorem kept_of_callStep (h : CallStep cfg timeout c work out) (hpast : out.past = c.past ++ more)
    (hnone : ∀ x ∈ exchanges more, x.request.stage = .token → tokenOf? x.answer = none) :
    (out.client c).kept = c.kept := by
  cases h with
  | tokenless htoken => cases htoken; rfl
  | crashed => rfl
  | done htoken htimeless hrest =>
    cases htoken with
    | reused => rfl
    | received => rfl
    | stored _ _ hx htoken =>
      simp only [Outcome.past, Client.past_after, List.append_assoc, List.append_right_inj] at hpast
      subst hpast
      rw [hnone _ (by simp) hx.stage] at htoken
      cases htoken

end

/-! ## Sequences of calls -/

/-- A call leaves the client settled, however it ends. -/
theorem settled_of_use (hcache : cfg.cacheToken) (hc : Settled c) (u : Use) :
    Settled (u.after cfg o c) := by
  cases u with
  | convert xlsx name timeout =>
    by_cases hfit : Fit cfg xlsx name
    · exact settled_of_callStep hcache hc (fun _ _ _ => Filed.carries) (on_convert hfit)
    · obtain ⟨e, hon⟩ := @on_convert_of_unfit cfg timeout o c xlsx name hfit
      rw [Use.after, hon]
      exact hc
  | upload path pdf timeout =>
    by_cases hready : cfg.Ready
    · exact settled_of_callStep hcache hc (fun _ _ _ => Delivered.carries)
        (on_upload hready path pdf)
    · obtain ⟨e, hon⟩ := @on_upload_of_not_ready cfg timeout o c path pdf hready
      rw [Use.after, hon]
      exact hc

/-- **The token that is kept is the stored one.** -/
theorem settled_after (hcache : cfg.cacheToken) (o : Outside) (uses : List Use) :
    Settled (clientAfter cfg o uses) := by
  unfold clientAfter
  suffices h : ∀ c, Settled c → Settled (uses.foldl (fun c u => u.after cfg o c) c) from h _ rfl
  induction uses with
  | nil => exact fun c hc => hc
  | cons u uses ih => exact fun c hc => ih _ (settled_of_use hcache hc u)

/-- What a call that passes adds to the past, and which token its requests carry. -/
theorem exists_added {u : Use} (h : u.Passes cfg) (hc : cfg.cacheToken → Settled c) :
    ∃ more, (u.after cfg o c).past = c.past ++ more ∧ Attests o c.past more ∧
      UsesFresh cfg u.timeout (usable cfg o c.past) (exchanges more) ∧
      ((∀ x ∈ exchanges more, x.request.stage = .token → tokenOf? x.answer = none) →
        (u.after cfg o c).kept = c.kept) := by
  cases u with
  | convert xlsx name timeout =>
    obtain ⟨more, hpast, hmore⟩ := attests_on (convert cfg xlsx name timeout) o c
    have hcall := @on_convert cfg timeout o c xlsx name h
    exact ⟨more, (Outcome.past_client ..).trans hpast, hmore,
      usesFresh_of_callStep hc (fun _ _ _ => Filed.carries) hcall hpast hmore,
      kept_of_callStep hcall hpast⟩
  | upload path pdf timeout =>
    obtain ⟨more, hpast, hmore⟩ := attests_on (upload cfg path pdf timeout) o c
    have hcall := @on_upload cfg timeout o c h path pdf
    exact ⟨more, (Outcome.past_client ..).trans hpast, hmore,
      usesFresh_of_callStep hc (fun _ _ _ => Delivered.carries) hcall hpast hmore,
      kept_of_callStep hcall hpast⟩

/-- A conversion that passes. -/
def sampleUse : Use := .convert "xlsx".toUTF8 "pack.xlsx" 5000

/-- An outside that grants everything, with tokens for two minutes. -/
def grantingOutside : Outside where
  send _ r := .ok <| match r.stage with
    | .token => ⟨200, "\x7b\"access_token\": \"t\", \"expires_in\": 120\x7d".toUTF8⟩
    | .upload => ⟨201, "\x7b\"id\": \"item-9\"\x7d".toUTF8⟩
    | .exporting => ⟨200, "%PDF-1.7".toUTF8⟩
    | .deletion => ⟨204, .empty⟩
  now past := past.length * 10 ^ 9
  freshName _ := "fresh"

/-- The client after two conversions, just before a third one. -/
def sampleClient : Client := clientAfter sampleConfig grantingOutside [sampleUse, sampleUse]

end Waybill.Drive
