/-
  Calls that end.

  Nothing that a reply holds keeps a call from its end, with a result or an error, but one: a token
  that is to be kept until a time that the clock cannot tell.  That is seen from what happened last.

  * `Use.Ends`: the call gives back something;
  * `Overdue`: the last that happened is the answer with such a token.

  Statements: `ends_unless_overdue`, and `upload_without_end` (an upload after which nothing comes).
-/
import Mathlib
import Waybill.Proofs.Drive.Freshness

namespace Waybill.Drive

variable {cfg : Config} {timeout : Nat} {o : Outside} {c : Client} {ε α : Type}

/-- The run ends with a result or an error. -/
def Outcome.Ends (out : Outcome ε α) : Prop :=
  ∃ result c', out = .ended result c'

/-- The call gives back a result or an error. -/
def Use.Ends (cfg : Config) (o : Outside) (c : Client) : Use → Prop
  | convert xlsx name timeout => ((Drive.convert cfg xlsx name timeout).on o c).Ends
  | upload path pdf timeout => ((Drive.upload cfg path pdf timeout).on o c).Ends

/-- What happened last is that a request for a token was answered with one, and that the clock told
    a time after which it cannot tell the end of the token's lifetime. -/
inductive Overdue (cfg : Config) (timeout : Nat) : List Incident → Prop
  | mk {before : List Incident} {x : Exchange} {value : String} {lifetime now : Nat}
      (hasks : x.request.AsksToken cfg timeout)
      (htoken : tokenOf? x.answer = some (value, lifetime))
      (hclock : clockEnd ≤ now / 10 ^ 9 + lifetime) :
      Overdue cfg timeout (before ++ [.sent x, .now now])

theorem Outcome.ends_ended (result : Except ε α) (c : Client) : (ended result c).Ends :=
  ⟨result, c, rfl⟩

theorem Outcome.not_ends_crashed (past : List Incident) :
    ¬(crashed past : Outcome ε α).Ends := by
  rintro ⟨result, c, h⟩
  cases h

theorem overdue_append_iff {before : List Incident} {x : Exchange} {value : String}
    {lifetime now : Nat} (hasks : x.request.AsksToken cfg timeout)
    (htoken : tokenOf? x.answer = some (value, lifetime)) :
    Overdue cfg timeout (before ++ [.sent x, .now now]) ↔ clockEnd ≤ now / 10 ^ 9 + lifetime := by
  refine ⟨fun h => ?_, .mk hasks htoken⟩
  generalize hmore : before ++ [Incident.sent x, .now now] = more at h
  cases h with
  | mk _ htoken' hclock =>
    -- what happened last is the same request and the same look at the clock
    obtain ⟨-, hlast⟩ := List.append_inj' hmore rfl
    simp only [List.cons.injEq, Incident.sent.injEq, Incident.now.injEq, and_true] at hlast
    obtain ⟨rfl, rfl⟩ := hlast
    obtain ⟨rfl, rfl⟩ := Prod.mk.inj (Option.some.inj (htoken.symm.trans htoken'))
    exact hclock

/-- A look at the clock alone tells of no token. -/
theorem not_overdue_now (time : Nat) : ¬Overdue cfg timeout [.now time] := by
  intro h
  generalize hmore : [Incident.now time] = more at h
  cases h with
  | @mk before => cases before <;> simp at hmore

/-- No token is overdue after which a file was sent. -/
theorem not_overdue_append {past rest : List Incident} (htimeless : ∀ time, .now time ∉ rest)
    (hrest : rest ≠ []) : ¬Overdue cfg timeout (past ++ rest) := by
  intro h
  generalize hmore : past ++ rest = more at h
  cases h with
  | @mk before x _ _ now =>
    have hlast : (past ++ rest).getLast? = some (.now now) := by simp [hmore]
    rw [List.getLast?_append_of_ne_nil _ hrest] at hlast
    exact htimeless now (List.mem_of_getLast? hlast)

/-- A call adds to what happened, and makes up no answer. -/
theorem Use.attests_after (u : Use) :
    ∃ more, (u.after cfg o c).past = c.past ++ more ∧ Attests o c.past more := by
  cases u with
  | convert xlsx name timeout =>
    rw [after, Outcome.past_client]
    exact attests_on ..
  | upload path pdf timeout =>
    rw [after, Outcome.past_client]
    exact attests_on ..

/-! ## Calls -/

/-- Coming by a token ends unless the token is overdue. -/
theorem ends_of_tokenStep {out : Outcome DriveError String} (h : TokenStep cfg timeout c out) :
    ∃ asked, out.past = c.past ++ asked ∧
      (out.Ends ↔ ¬(cfg.cacheToken ∧ Overdue cfg timeout asked)) := by
  cases h with
  | reused =>
    exact ⟨_, rfl, iff_of_true (Outcome.ends_ended ..) fun h => not_overdue_now _ h.2⟩
  | refused =>
    exact ⟨_, rfl, iff_of_true (Outcome.ends_ended ..) fun h =>
      not_overdue_append (by simp) (by simp) h.2⟩
  | received hcache =>
    exact ⟨_, rfl, iff_of_true (Outcome.ends_ended ..) fun h => hcache h.1⟩
  | stored hcache hstale hx htoken hclock =>
    exact ⟨_, rfl, iff_of_true (Outcome.ends_ended ..) fun h =>
      Nat.not_le.2 hclock ((overdue_append_iff hx htoken).1 h.2)⟩
  | crashed hcache hstale hx htoken hclock =>
    exact ⟨_, rfl, iff_of_false (Outcome.not_ends_crashed _) fun h =>
      h ⟨hcache, .mk hx htoken hclock⟩⟩

theorem ends_of_callStep {work : String → List Exchange → Except ε α → Prop} {out : Outcome ε α}
    {more : List Incident} (h : CallStep cfg timeout c work out)
    (hpast : out.past = c.past ++ more) :
    out.Ends ↔ ¬(cfg.cacheToken ∧ Overdue cfg timeout more) := by
  cases h with
  | tokenless htoken =>
    obtain ⟨asked, hasked, hends⟩ := ends_of_tokenStep htoken
    obtain rfl := List.append_cancel_left (hasked.symm.trans hpast)
    exact iff_of_true (Outcome.ends_ended ..) (hends.1 (Outcome.ends_ended ..))
  | crashed htoken =>
    obtain ⟨asked, hasked, hends⟩ := ends_of_tokenStep htoken
    obtain rfl := List.append_cancel_left (hasked.symm.trans hpast)
    exact iff_of_false (Outcome.not_ends_crashed _) fun h =>
      Outcome.not_ends_crashed _ (hends.2 h)
  | @done token c' rest result htoken htimeless =>
    obtain ⟨asked, hasked, hends⟩ := ends_of_tokenStep htoken
    change c'.past ++ rest = _ at hpast
    change c'.past = _ at hasked
    rw [hasked, List.append_assoc] at hpast
    obtain rfl := List.append_cancel_left hpast
    refine iff_of_true (Outcome.ends_ended ..) ?_
    by_cases hrest : rest = []
    · rw [hrest, List.append_nil]
      exact hends.1 (Outcome.ends_ended ..)
    · exact fun h => not_overdue_append htimeless hrest h.2

theorem not_overdue_nil : ¬Overdue cfg timeout [] := by
  intro h
  generalize hmore : ([] : List Incident) = more at h
  cases h
  simp at hmore

/-- A call that is refused ends, and adds nothing. -/
theorem ends_of_refused {s : Session ε α} (h : ∃ e, s.on o c = .ended (.error e) c)
    {more : List Incident} (hpast : (s.on o c).past = c.past ++ more) :
    (s.on o c).Ends ↔ ¬(cfg.cacheToken ∧ Overdue cfg timeout more) := by
  obtain ⟨e, hon⟩ := h
  rw [hon] at hpast ⊢
  obtain rfl : [] = more := List.append_cancel_left ((List.append_nil _).trans hpast)
  exact iff_of_true (Outcome.ends_ended ..) fun h => not_overdue_nil h.2

theorem ends_iff {u : Use} {more : List Incident}
    (hpast : (u.after cfg o c).past = c.past ++ more) :
    u.Ends cfg o c ↔ ¬(cfg.cacheToken ∧ Overdue cfg u.timeout more) := by
  cases u with
  | convert xlsx name timeout =>
    rw [Use.after, Outcome.past_client] at hpast
    by_cases hfit : Fit cfg xlsx name
    · exact ends_of_callStep (on_convert hfit) hpast
    · exact ends_of_refused (on_convert_of_unfit hfit) hpast
  | upload path pdf timeout =>
    rw [Use.after, Outcome.past_client] at hpast
    by_cases hready : cfg.Ready
    · exact ends_of_callStep (on_upload hready path pdf) hpast
    · exact ends_of_refused (on_upload_of_not_ready hready) hpast

/-- **A call ends unless a token is overdue.**  After any calls, and whatever the outside answers, a
    conversion or an upload gives back a result or an error, but for one case: tokens are kept, and
    the call was answered with a token whose end the clock cannot tell. -/
theorem ends_unless_overdue (cfg : Config) (o : Outside) (uses : List Use) (u : Use) :
    ∃ more, (u.after cfg o (clientAfter cfg o uses)).past =
        (clientAfter cfg o uses).past ++ more ∧
      Attests o (clientAfter cfg o uses).past more ∧
      (u.Ends cfg o (clientAfter cfg o uses) ↔
        ¬(cfg.cacheToken ∧ Overdue cfg u.timeout more)) := by
  obtain ⟨more, hpast, hmore⟩ := @Use.attests_after cfg o (clientAfter cfg o uses) u
  exact ⟨more, hpast, hmore, ends_iff hpast⟩

/-- **A reply can end the program.**  A token without an end is the last that an upload hears. -/
theorem upload_without_end :
    ¬(Use.upload "packs/B/pack.pdf" "%PDF-1.7".toUTF8 5000).Ends sampleConfig endlessOutside
      (clientAfter sampleConfig endlessOutside []) := by
  obtain ⟨x, past, hon, -⟩ := crashed_of_callStep
    (@on_upload sampleConfig 5000 endlessOutside ⟨none, []⟩ ready_sample "packs/B/pack.pdf"
      "%PDF-1.7".toUTF8)
    rfl (fun _ _ => tokenOf?_endlessReply) (by norm_num [clockEnd])
  change ¬Outcome.Ends (Session.on _ endlessOutside ⟨none, []⟩)
  rw [hon]
  exact Outcome.not_ends_crashed past

end Waybill.Drive
