/-
  The conversations of the client with the drive.

  What is sent in one call follows from the answers alone: nothing before the call is found fit,
  then the request for a token unless one is kept, and the files only with a token.  A spreadsheet
  that was stored is asked for and deleted again, whatever came of that.

  * `Obtained`: the token of a call, kept or just received;
  * `Conversation`: all that is sent in one call, and how the call ends.

  Statements: `requests_of_calls` (every call is such a conversation, over the secure protocol, in
  its time and with its token) and `unending_lifetime` (an answer with a token after which nothing
  more is sent, since the clock cannot tell when the token ends).
-/
import Mathlib
import Waybill.Proofs.Drive.Call

namespace Waybill.Drive

variable {cfg : Config} {timeout : Nat} {o : Outside} {c : Client} {ε α : Type}

/-- The token of a call: the kept one, or the one that the answer to its request held. -/
inductive Obtained (cfg : Config) (timeout : Nat) (kept : Option Token) :
    List Exchange → String → Prop
  | reused {token : Token} (hcache : cfg.cacheToken) (hkept : kept = some token) :
      Obtained cfg timeout kept [] token.value
  | received {x : Exchange} {value : String} {lifetime : Nat}
      (hx : x.request.AsksToken cfg timeout) (htoken : tokenOf? x.answer = some (value, lifetime)) :
      Obtained cfg timeout kept [x] value

theorem Obtained.asksToken {kept : Option Token} {asked : List Exchange} {token : String}
    (h : Obtained cfg timeout kept asked token) :
    ∀ x ∈ asked, x.request.AsksToken cfg timeout := by
  cases h with
  | reused => simp
  | received hx => simpa using hx

/-- All that is sent in one call, and how the call ends: `fit` tells whether anything is sent at
    all, `work` what may be sent with a token. -/
inductive Conversation (cfg : Config) (timeout : Nat) (kept : Option Token) (fit : Prop)
    (work : String → List Exchange → Except ε α → Prop) : List Exchange → Outcome ε α → Prop
  | unfit {e : ε} {c' : Client} (h : ¬fit) :
      Conversation cfg timeout kept fit work [] (.ended (.error e) c')
  | tokenless {x : Exchange} {e : ε} {c' : Client} (h : fit)
      (hx : x.request.AsksToken cfg timeout) (hnone : tokenOf? x.answer = none) :
      Conversation cfg timeout kept fit work [x] (.ended (.error e) c')
  | crashed {x : Exchange} {value : String} {lifetime now : Nat} {past : List Incident} (h : fit)
      (hcache : cfg.cacheToken) (hx : x.request.AsksToken cfg timeout)
      (htoken : tokenOf? x.answer = some (value, lifetime))
      (hclock : clockEnd ≤ now / 10 ^ 9 + lifetime) :
      Conversation cfg timeout kept fit work [x] (.crashed (past ++ [.now now]))
  | done {asked rest : List Exchange} {token : String} {result : Except ε α} {c' : Client}
      (h : fit) (hasked : Obtained cfg timeout kept asked token) (hwork : work token rest result) :
      Conversation cfg timeout kept fit work (asked ++ rest) (.ended result c')

section
variable {fit : Prop} {work : String → List Exchange → Except ε α → Prop} {out : Outcome ε α}

theorem exchanges_of_stale {kept : Option Token} {looks : List Incident}
    (h : Stale cfg kept looks) : exchanges looks = [] := by
  cases h <;> rfl

theorem obtained_of_tokenStep {token : String} {c' : Client}
    (h : TokenStep cfg timeout c (.ended (.ok token) c')) :
    ∃ asked, exchanges c'.past = exchanges c.past ++ asked ∧
      Obtained cfg timeout c.kept asked token := by
  cases h with
  | reused hcache hkept => exact ⟨[], by simp, .reused hcache hkept⟩
  | received hcache hx htoken => exact ⟨[_], by simp, .received hx htoken⟩
  | stored hcache hstale hx htoken =>
    exact ⟨[_], by simp [exchanges_of_stale hstale], .received hx htoken⟩

theorem conversation_of_callStep (hfit : fit) (h : CallStep cfg timeout c work out) :
    ∃ sent, exchanges out.past = exchanges c.past ++ sent ∧
      Conversation cfg timeout c.kept fit work sent out := by
  cases h with
  | tokenless htoken =>
    cases htoken with
    | refused hstale hx hnone =>
      exact ⟨[_], by simp [Outcome.past, exchanges_of_stale hstale], .tokenless hfit hx hnone⟩
  | crashed htoken =>
    cases htoken with
    | @crashed looks x _ _ now hcache hstale hx htoken hclock =>
      have hpast : c.past ++ (looks ++ [.sent x, .now now]) =
          (c.past ++ looks ++ [.sent x]) ++ [.now now] := by simp
      refine ⟨[x], by simp [Outcome.past, exchanges_of_stale hstale], ?_⟩
      rw [hpast]
      exact .crashed hfit hcache hx htoken hclock
  | done htoken htimeless hwork =>
    obtain ⟨asked, hasked, hobtained⟩ := obtained_of_tokenStep htoken
    exact ⟨asked ++ _, by simp [Outcome.past, hasked], .done hfit hobtained hwork⟩

/-- A request of a call that came by a token: secure, in the time of the call, with the token. -/
structure Exchange.Carries (x : Exchange) (timeout : Nat) (token : Option String) : Prop where
  stage : x.request.stage ≠ .token
  secure : x.request.url.scheme = "https"
  timeout : x.request.timeout = timeout
  bearer : x.request.bearer = token

theorem Request.Is.carries {x : Exchange} {stage : Stage} {method : Method}
    {place : Except DriveError Url} {bearer : Option String} {body : ByteArray}
    (h : x.request.Is stage method place timeout bearer body) (hstage : stage ≠ .token) :
    x.Carries timeout bearer :=
  ⟨h.stage ▸ hstage, h.secure, h.timeout, h.bearer⟩

theorem Filed.carries {xlsx : ByteArray} {name token : String} {rest : List Exchange}
    {result : Except ConversionError ByteArray} (h : Filed cfg xlsx name timeout token rest result) :
    ∀ x ∈ rest, x.Carries timeout token := by
  cases h with
  | unstored hput =>
    obtain ⟨fresh, hput⟩ := hput
    simpa using hput.carries (by decide)
  | stored hput hitem hget hdelete =>
    obtain ⟨fresh, hput⟩ := hput
    simpa using ⟨hput.carries (by decide), hget.carries (by decide), hdelete.carries (by decide)⟩

theorem Delivered.carries {path token : String} {pdf : ByteArray} {rest : List Exchange}
    {result : Except DeliveryError Unit} (h : Delivered cfg path pdf timeout token rest result) :
    ∀ x ∈ rest, x.Carries timeout token := by
  cases h with
  | pathless => simp
  | sent hput => simpa using hput.carries (by decide)

/-- Every request but that for a token carries the token of the call. -/
theorem Conversation.carries {kept : Option Token} {sent : List Exchange}
    (hwork : ∀ token rest result, work token rest result → ∀ x ∈ rest, x.Carries timeout token)
    (h : Conversation cfg timeout kept fit work sent out) :
    ∀ x ∈ sent, x.request.AsksToken cfg timeout ∨
      ∃ asked token, asked <+: sent ∧ Obtained cfg timeout kept asked token ∧
        x.Carries timeout token := by
  intro x hmem
  cases h with
  | unfit => cases hmem
  | tokenless _ hx => exact .inl (List.mem_singleton.1 hmem ▸ hx)
  | crashed _ _ hx => exact .inl (List.mem_singleton.1 hmem ▸ hx)
  | done _ hasked hrest =>
    rcases List.mem_append.1 hmem with hmem | hmem
    · exact .inl (hasked.asksToken x hmem)
    · exact .inr ⟨_, _, List.prefix_append .., hasked, hwork _ _ _ hrest x hmem⟩

/-- An export of a PDF file: its answer tells of success, and the body starts as such a file does. -/
def Exchange.Exports (x : Exchange) (pdf : ByteArray) : Prop :=
  x.request.stage = .exporting ∧ bodyOf? x.answer = some pdf ∧ ∃ rest, pdf = "%PDF".toUTF8 ++ rest

theorem Exchange.not_exports {x : Exchange} {pdf : ByteArray}
    (h : x.request.stage ≠ .exporting) : ¬x.Exports pdf := fun hx => h hx.1

theorem Exchange.exports_iff {x : Exchange} {pdf : ByteArray} (h : x.request.stage = .exporting) :
    x.Exports pdf ↔ exported x.answer = .ok pdf := by
  rw [exported_eq_ok, Exchange.Exports, and_iff_right h]

/-- A conversion succeeds exactly when an export gave its result. -/
theorem Conversation.ended_ok_iff {xlsx pdf : ByteArray} {name : String} {kept : Option Token}
    {sent : List Exchange} {out : Outcome ConversionError ByteArray}
    (h : Conversation cfg timeout kept fit (Filed cfg xlsx name timeout) sent out) :
    (∃ c', out = .ended (.ok pdf) c') ↔ ∃ x ∈ sent, x.Exports pdf := by
  have htoken {x : Exchange} (hx : x.request.AsksToken cfg timeout) : ¬x.Exports pdf :=
    Exchange.not_exports (by simp [hx.stage])
  cases h with
  | unfit => simp
  | tokenless _ hx => simp [htoken hx]
  | crashed _ _ hx => simp [htoken hx]
  | @done asked _ _ _ _ _ hasked hwork =>
    have hnone : ∀ x ∈ asked, ¬x.Exports pdf := fun x hx => htoken (hasked.asksToken x hx)
    cases hwork with
    | @unstored put _ hput =>
      obtain ⟨fresh, hput⟩ := hput
      have hput : ¬put.Exports pdf := Exchange.not_exports (by simp [hput.stage])
      simp [or_and_right, exists_or, hput]
      exact hnone
    | @stored _ put get delete hput _ hget hdelete =>
      obtain ⟨fresh, hput⟩ := hput
      have hput : ¬put.Exports pdf := Exchange.not_exports (by simp [hput.stage])
      have hdelete : ¬delete.Exports pdf := Exchange.not_exports (by simp [hdelete.stage])
      simp [or_and_right, exists_or, hput, hdelete, Exchange.exports_iff hget.stage]
      exact fun x hx hex => absurd hex (hnone x hx)

end

/-! ## The requests of a call -/

/-- The requests go to the secure endpoints in the time of the call, and but for that for a token
    they carry the token that the call has obtained. -/
def Proper (cfg : Config) (timeout : Nat) (kept : Option Token) (sent : List Exchange) : Prop :=
  ∀ x ∈ sent, x.request.url.scheme = "https" ∧ x.request.timeout = timeout ∧
    (x.request.stage ≠ .token → ∃ asked token, asked <+: sent ∧
      Obtained cfg timeout kept asked token ∧ x.request.bearer = some token)

theorem Conversation.proper {kept : Option Token} {sent : List Exchange} {fit : Prop}
    {work : String → List Exchange → Except ε α → Prop} {out : Outcome ε α}
    (hwork : ∀ token rest result, work token rest result → ∀ x ∈ rest, x.Carries timeout token)
    (h : Conversation cfg timeout kept fit work sent out) : Proper cfg timeout kept sent := by
  intro x hx
  rcases h.carries hwork x hx with hasks | ⟨asked, token, hprefix, hobtained, hcarries⟩
  · exact ⟨hasks.secure, hasks.timeout, fun hstage => absurd hasks.stage hstage⟩
  · exact ⟨hcarries.secure, hcarries.timeout,
      fun _ => ⟨asked, token, hprefix, hobtained, hcarries.bearer⟩⟩

/-- The conversation of a call is what was added to the past. -/
theorem conversation_added {kept : Option Token} {fit : Prop}
    {work : String → List Exchange → Except ε α → Prop} {s : Session ε α}
    (h : ∃ sent, exchanges (s.on o c).past = exchanges c.past ++ sent ∧
      Conversation cfg timeout kept fit work sent (s.on o c)) :
    ∃ more, (s.on o c).past = c.past ++ more ∧ Attests o c.past more ∧
      Conversation cfg timeout kept fit work (exchanges more) (s.on o c) := by
  obtain ⟨sent, hsent, hconversation⟩ := h
  obtain ⟨more, hpast, hmore⟩ := attests_on s o c
  rw [hpast, exchanges_append] at hsent
  exact ⟨more, hpast, hmore, List.append_cancel_left hsent ▸ hconversation⟩

theorem conversation_convert (cfg : Config) (timeout : Nat) (o : Outside) (c : Client)
    (xlsx : ByteArray) (name : String) :
    ∃ more, ((convert cfg xlsx name timeout).on o c).past = c.past ++ more ∧
      Attests o c.past more ∧
      Conversation cfg timeout c.kept (Fit cfg xlsx name) (Filed cfg xlsx (Text.trim name) timeout)
        (exchanges more) ((convert cfg xlsx name timeout).on o c) := by
  refine conversation_added ?_
  by_cases hfit : Fit cfg xlsx name
  · exact conversation_of_callStep hfit (on_convert hfit)
  · obtain ⟨e, hon⟩ := @on_convert_of_unfit cfg timeout o c xlsx name hfit
    rw [hon]
    exact ⟨[], by simp [Outcome.past], .unfit hfit⟩

theorem conversation_upload (cfg : Config) (timeout : Nat) (o : Outside) (c : Client)
    (path : String) (pdf : ByteArray) :
    ∃ more, ((upload cfg path pdf timeout).on o c).past = c.past ++ more ∧
      Attests o c.past more ∧
      Conversation cfg timeout c.kept cfg.Ready (Delivered cfg path pdf timeout)
        (exchanges more) ((upload cfg path pdf timeout).on o c) := by
  refine conversation_added ?_
  by_cases hready : cfg.Ready
  · exact conversation_of_callStep hready (on_upload hready path pdf)
  · obtain ⟨e, hon⟩ := @on_upload_of_not_ready cfg timeout o c path pdf hready
    rw [hon]
    exact ⟨[], by simp [Outcome.past], .unfit hready⟩

/-- **The requests of a call.**  Whatever the outside answers, a conversion and an upload send what
    their conversation tells, over the secure protocol, in their time and with their token; a
    conversion succeeds exactly when its export gave a PDF file, whatever its deletion gave. -/
theorem requests_of_calls (cfg : Config) (timeout : Nat) (o : Outside) (c : Client) :
    (∀ xlsx name, ∃ more,
      ((convert cfg xlsx name timeout).on o c).past = c.past ++ more ∧ Attests o c.past more ∧
      Conversation cfg timeout c.kept (Fit cfg xlsx name) (Filed cfg xlsx (Text.trim name) timeout)
        (exchanges more) ((convert cfg xlsx name timeout).on o c) ∧
      (∀ pdf, (∃ c', (convert cfg xlsx name timeout).on o c = .ended (.ok pdf) c') ↔
        ∃ x ∈ exchanges more, x.Exports pdf) ∧
      Proper cfg timeout c.kept (exchanges more)) ∧
    ∀ path pdf, ∃ more,
      ((upload cfg path pdf timeout).on o c).past = c.past ++ more ∧ Attests o c.past more ∧
      Conversation cfg timeout c.kept cfg.Ready (Delivered cfg path pdf timeout) (exchanges more)
        ((upload cfg path pdf timeout).on o c) ∧
      Proper cfg timeout c.kept (exchanges more) := by
  constructor
  · intro xlsx name
    obtain ⟨more, hpast, hmore, h⟩ := conversation_convert cfg timeout o c xlsx name
    exact ⟨more, hpast, hmore, h, fun pdf => h.ended_ok_iff, h.proper fun _ _ _ => Filed.carries⟩
  · intro path pdf
    obtain ⟨more, hpast, hmore, h⟩ := conversation_upload cfg timeout o c path pdf
    exact ⟨more, hpast, hmore, h, h.proper fun _ _ _ => Delivered.carries⟩

/-! ## Tokens without an end -/

/-- A call crashes if each token is to be kept longer than the clock can tell. -/
theorem crashed_of_callStep {s : Session ε α}
    {work : String → List Exchange → Except ε α → Prop} {value : String} {lifetime : Nat}
    (hcall : CallStep cfg timeout ⟨none, []⟩ work (s.on o ⟨none, []⟩)) (hcache : cfg.cacheToken)
    (htokens : ∀ past r, tokenOf? (o.send past r) = some (value, lifetime))
    (hend : clockEnd ≤ lifetime) :
    ∃ x past, s.on o ⟨none, []⟩ = .crashed past ∧ exchanges past = [x] ∧
      tokenOf? x.answer = some (value, lifetime) := by
  have htokenOf (x : Exchange) (hx : .sent x ∈ (s.on o ⟨none, []⟩).past) :
      tokenOf? x.answer = some (value, lifetime) := by
    obtain ⟨more, hpast, hmore⟩ := attests_on s o ⟨none, []⟩
    obtain ⟨before, hanswer⟩ := hmore.exists_answer (x := x) (by rw [hpast] at hx; simpa using hx)
    rw [hanswer, htokens]
  revert htokenOf hcall
  generalize s.on o ⟨none, []⟩ = out
  intro hcall htokenOf
  cases hcall with
  | tokenless htoken =>
    cases htoken with
    | @refused looks x _ hstale hx hnone =>
      rw [htokenOf x (by simp [Outcome.past])] at hnone
      cases hnone
  | crashed htoken =>
    cases htoken with
    | @crashed looks x _ _ now _ hstale =>
      exact ⟨x, _, rfl, by simp [exchanges_of_stale hstale], htokenOf x (by simp [Outcome.past])⟩
  | done htoken =>
    cases htoken with
    | reused _ hkept => cases hkept
    | received h => exact absurd hcache h
    | @stored looks x _ _ now _ hstale _ htoken hclock =>
      rw [htokenOf x (by simp [Outcome.past])] at htoken
      obtain ⟨rfl, rfl⟩ := Prod.mk.inj (Option.some.inj htoken)
      omega

theorem crashed_of_endless {xlsx : ByteArray} {name value : String} {lifetime : Nat}
    (hfit : Fit cfg xlsx name) (hcache : cfg.cacheToken)
    (htokens : ∀ past r, tokenOf? (o.send past r) = some (value, lifetime))
    (hend : clockEnd ≤ lifetime) :
    ∃ x past, (convert cfg xlsx name timeout).on o ⟨none, []⟩ = .crashed past ∧
      exchanges past = [x] ∧ tokenOf? x.answer = some (value, lifetime) :=
  crashed_of_callStep (on_convert hfit) hcache htokens hend

/-- Settings that are ready, and keep tokens. -/
def sampleConfig : Config :=
  { Config.standard with
    tenant := "tenant", client := "client", secret := "secret", drive := "drive-1",
    authorityUrl := secure "a", graphUrl := secure "a", cacheToken := true }

theorem isSecure_sample : IsSecure (secure "a") :=
  ⟨⟨"https", some ⟨"", "", .name "a", none⟩, .segments [""], none, none⟩, by cbv, rfl⟩

theorem ready_sample : sampleConfig.Ready :=
  ⟨by decide +kernel, by decide +kernel, by decide +kernel, by decide +kernel, isSecure_sample,
    isSecure_sample⟩

/-- A spreadsheet with a name can be sent with them. -/
theorem fit_sample : Fit sampleConfig "xlsx".toUTF8 "pack.xlsx" :=
  ⟨by decide, by decide +kernel, ready_sample⟩

/-- A reply with a token of the longest lifetime. -/
def endlessReply : Reply :=
  ⟨200, "\x7b\"access_token\": \"t\", \"expires_in\": 18446744073709551615\x7d".toUTF8⟩

theorem ofBytes?_endlessReply : Json.ofBytes? endlessReply.body = some (.record
    [("access_token", .text "t"), ("expires_in", .int 18446744073709551615)]) := by
  cbv

theorem tokenOf?_endlessReply : tokenOf? (.ok endlessReply) = some ("t", 18446744073709551615) := by
  have hbody : bodyOf? (.ok endlessReply) = some endlessReply.body := rfl
  simp only [tokenOf?, hbody, ofBytes?_endlessReply, Option.bind_eq_bind, Option.bind_some]
  simp [Json.parts?, Json.only?, filledText?, Json.Parts.optional, Json.Parts.at?, Json.asText,
    Json.asOption, Json.asNatBelow]

/-- An outside that answers everything with that reply. -/
def endlessOutside : Outside := ⟨fun _ _ => .ok endlessReply, fun _ => 0, fun _ => "fresh"⟩

/-- **An answer with a token is not always used**: it is the last that the call hears. -/
theorem unending_lifetime : Fit sampleConfig "xlsx".toUTF8 "pack.xlsx" ∧
    ∃ x past, (convert sampleConfig "xlsx".toUTF8 "pack.xlsx" 5000).on endlessOutside ⟨none, []⟩ =
        .crashed past ∧
      exchanges past = [x] ∧ tokenOf? x.answer = some ("t", 18446744073709551615) :=
  ⟨fit_sample, crashed_of_endless fit_sample rfl (fun _ _ => tokenOf?_endlessReply)
    (by norm_num [clockEnd])⟩

end Waybill.Drive
