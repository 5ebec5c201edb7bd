/-
  What is read as a date or a moment.

  A text is read from its front: a number takes the blanks before it and as many digits as its field
  has room for.  What follows a number is a mark or the end, so no text is read in two ways.

  * `NumberText`, `YearText`, `DateText`, `FractionText`, `TimeText` and `MomentText` are the texts
    that are read;
  * `Plain`, `PlainDate` and `PlainMoment` are those with every number at its width and no blanks.

  Statements: `date?_eq_some_iff` and `moment?_eq_some_iff` (what is read), `plainDate_iff` (a date
  is shown plainly), `PlainMoment.shownBack` and `ShownBack.plain` (which moments are shown as they
  were written).
-/
import Mathlib.Data.List.DropRight
import Mathlib.Data.List.Induction
import Mathlib.Data.List.TakeWhile
import Waybill.Proofs.Calendar.Order

namespace Waybill.Calendar

open Waybill.Text

/-! ## Digits -/

/-- Nothing but digits. -/
def Digits (ds : List Char) : Prop :=
  ∀ c ∈ ds, c.isDigit = true

/-- No digit comes next. -/
def Closed (cs : List Char) : Prop :=
  ∀ c ∈ cs.head?, c.isDigit = false

theorem digitChar_toNat {c : Char} (h : c.isDigit = true) :
    Nat.digitChar (c.toNat - '0'.toNat) = c ∧ c.toNat - '0'.toNat < 10 := by
  have hbounds : 48 ≤ c.toNat ∧ c.toNat ≤ 57 := by
    simp only [Char.isDigit, Bool.and_eq_true, decide_eq_true_eq, UInt32.le_iff_toNat_le,
      ge_iff_le] at h
    exact h
  have hall : ∀ m : Fin 10, Nat.digitChar m.val = Char.ofNat (48 + m.val) := by decide
  have hlt : c.toNat - 48 < 10 := by omega
  refine ⟨(hall ⟨c.toNat - 48, hlt⟩).trans ?_, hlt⟩
  rw [show 48 + (c.toNat - 48) = c.toNat by omega, Char.ofNat_toNat]

theorem ofDigits_concat (ds : List Char) (c : Char) :
    ofDigits (ds ++ [c]) = ofDigits ds * 10 + (c.toNat - '0'.toNat) := by
  simp [ofDigits]

/-- A number has the digits that it was read from. -/
theorem digits_ofDigits {ds : List Char} (h : Digits ds) :
    digits ds.length (ofDigits ds) = ds ∧ ofDigits ds < 10 ^ ds.length := by
  induction ds using List.reverseRecOn with
  | nil => exact ⟨rfl, by decide⟩
  | append_singleton ds c ih =>
    obtain ⟨hdigits, hlt⟩ := ih fun d hd => h d (List.mem_append_left _ hd)
    obtain ⟨hc, hten⟩ := digitChar_toNat (h c (by simp))
    rw [ofDigits_concat, List.length_append, List.length_singleton, digits, Nat.pow_succ]
    generalize c.toNat - '0'.toNat = m at hc hten
    refine ⟨?_, by omega⟩
    rw [show (ofDigits ds * 10 + m) / 10 = ofDigits ds by omega,
      show (ofDigits ds * 10 + m) % 10 = m by omega, hdigits, hc]

theorem digits?_append {width : Nat} {ds rest : List Char} (hds : Digits ds) (hne : ds ≠ [])
    (hwidth : ds.length ≤ width) (hrest : ds.length = width ∨ Closed rest) :
    digits? width (ds ++ rest) = some (ofDigits ds, rest) := by
  have hnone : (rest.take (width - ds.length)).takeWhile Char.isDigit = [] := by
    rcases hrest with hfull | hclosed
    · rw [hfull, Nat.sub_self]
      rfl
    · cases rest with
      | nil => simp
      | cons c cs =>
        cases width - ds.length with
        | zero => rfl
        | succ k => rw [List.take_succ_cons, List.takeWhile_cons, hclosed c rfl]; rfl
  have htaken : ((ds ++ rest).take width).takeWhile Char.isDigit = ds := by
    rw [List.take_append, List.take_of_length_le hwidth, List.takeWhile_append_of_pos hds, hnone,
      List.append_nil]
  unfold digits?
  simp [htaken, hne]

theorem exists_of_digits? {width n : Nat} {cs rest : List Char}
    (h : digits? width cs = some (n, rest)) : ∃ ds, Digits ds ∧ ds ≠ [] ∧ ds.length ≤ width ∧
      cs = ds ++ rest ∧ n = ofDigits ds := by
  unfold digits? at h
  dsimp only at h
  split at h
  · cases h
  · next hne =>
    obtain ⟨rfl, rfl⟩ := Prod.mk.inj (Option.some.inj h)
    have hpre : (cs.take width).takeWhile Char.isDigit <+: cs :=
      (List.takeWhile_prefix _).trans (List.take_prefix width cs)
    refine ⟨_, fun c hc => List.mem_takeWhile_imp hc, by simpa using hne, ?_, ?_, rfl⟩
    · exact (List.takeWhile_prefix _).length_le.trans (List.length_take_le width cs)
    · obtain ⟨t, ht⟩ := hpre
      generalize (cs.take width).takeWhile Char.isDigit = ds at ht
      rw [← ht, List.drop_left]

/-! ## Numbers -/

/-- A number of at most so many digits, after any blanks. -/
def NumberText (width n : Nat) (cs : List Char) : Prop :=
  ∃ blanks ds, (∀ c ∈ blanks, isBlank c = true) ∧ Digits ds ∧ ds ≠ [] ∧ ds.length ≤ width ∧
    cs = blanks ++ ds ∧ n = ofDigits ds

/-- A year of at most four digits, or of a sign and any digits, after any blanks. -/
inductive YearText : Int → List Char → Prop
  | bare {n : Nat} {cs : List Char} (h : NumberText 4 n cs) : YearText n cs
  | plus {blanks ds : List Char} (hblanks : ∀ c ∈ blanks, isBlank c = true) (hds : Digits ds)
    (hne : ds ≠ []) : YearText (ofDigits ds) (blanks ++ '+' :: ds)
  | minus {blanks ds : List Char} (hblanks : ∀ c ∈ blanks, isBlank c = true) (hds : Digits ds)
    (hne : ds ≠ []) : YearText (-Int.ofNat (ofDigits ds)) (blanks ++ '-' :: ds)

theorem not_isBlank_of_isDigit {c : Char} (h : c.isDigit = true) : isBlank c = false := by
  have hall : ∀ m : Fin 10, isBlank (Nat.digitChar m.val) = false := by decide
  obtain ⟨hc, hlt⟩ := digitChar_toNat h
  exact hc ▸ hall ⟨_, hlt⟩

theorem dropBlanks_append {blanks cs : List Char} (h : ∀ c ∈ blanks, isBlank c = true)
    (hcs : ∀ c ∈ cs.head?, isBlank c = false) : dropBlanks (blanks ++ cs) = cs := by
  unfold dropBlanks
  rw [List.dropWhile_append_of_pos h]
  cases cs with
  | nil => rfl
  | cons c cs => exact List.dropWhile_cons_of_neg (by simp [hcs c rfl])

/-- A text is the blanks at its front and what is left without them. -/
theorem exists_blanks (cs : List Char) :
    ∃ blanks, (∀ c ∈ blanks, isBlank c = true) ∧ cs = blanks ++ dropBlanks cs :=
  ⟨cs.takeWhile isBlank, fun _ => List.mem_takeWhile_imp,
    List.takeWhile_append_dropWhile.symm⟩

theorem head?_digits {ds : List Char} (hds : Digits ds) (hne : ds ≠ []) (rest : List Char) :
    ∃ c, (ds ++ rest).head? = some c ∧ c.isDigit = true := by
  cases ds with
  | nil => exact (hne rfl).elim
  | cons c ds => exact ⟨c, rfl, hds c List.mem_cons_self⟩

theorem dropBlanks_digits {blanks ds rest : List Char} (hblanks : ∀ c ∈ blanks, isBlank c = true)
    (hds : Digits ds) (hne : ds ≠ []) : dropBlanks (blanks ++ ds ++ rest) = ds ++ rest := by
  rw [List.append_assoc]
  refine dropBlanks_append hblanks fun c hc => ?_
  obtain ⟨d, hhead, hd⟩ := head?_digits hds hne rest
  rw [hhead] at hc
  exact Option.some.inj hc ▸ not_isBlank_of_isDigit hd

theorem number?_append {width n : Nat} {cs rest : List Char} (h : NumberText width n cs)
    (hrest : Closed rest) : number? width (cs ++ rest) = some (n, rest) := by
  obtain ⟨blanks, ds, hblanks, hds, hne, hwidth, rfl, rfl⟩ := h
  rw [number?, dropBlanks_digits hblanks hds hne]
  exact digits?_append hds hne hwidth (.inr hrest)

theorem exists_of_number? {width n : Nat} {cs rest : List Char}
    (h : number? width cs = some (n, rest)) : ∃ ns, NumberText width n ns ∧ cs = ns ++ rest := by
  obtain ⟨blanks, hblanks, hcs⟩ := exists_blanks cs
  obtain ⟨ds, hds, hne, hwidth, hrest, hn⟩ := exists_of_digits? h
  refine ⟨blanks ++ ds, ⟨blanks, ds, hblanks, hds, hne, hwidth, rfl, hn⟩, ?_⟩
  rw [List.append_assoc, ← hrest]
  exact hcs

theorem year?_append {year : Int} {cs rest : List Char} (h : YearText year cs)
    (hrest : Closed rest) : year? (cs ++ rest) = some (year, rest) := by
  -- after a sign the whole text is searched for digits
  have hsigned {ds : List Char} (hds : Digits ds) (hne : ds ≠ []) :
      digits? (ds ++ rest).length (ds ++ rest) = some (ofDigits ds, rest) :=
    digits?_append hds hne (by simp) (.inr hrest)
  cases h with
  | bare h =>
    obtain ⟨blanks, ds, hblanks, hds, hne, hwidth, rfl, rfl⟩ := h
    have hread := digits?_append hds hne hwidth (.inr hrest)
    rw [year?, dropBlanks_digits hblanks hds hne]
    obtain ⟨d, hhead, hd⟩ := head?_digits hds hne rest
    -- what starts with a digit has no sign
    split
    · next heq => rw [heq] at hhead; cases hhead; cases hd
    · next heq => rw [heq] at hhead; cases hhead; cases hd
    · rw [hread]; rfl
  | plus hblanks hds hne =>
    rw [year?, List.append_assoc, dropBlanks_append hblanks fun c hc => by cases hc; decide]
    exact congrArg (Option.map _) (hsigned hds hne)
  | minus hblanks hds hne =>
    rw [year?, List.append_assoc, dropBlanks_append hblanks fun c hc => by cases hc; decide]
    exact congrArg (Option.map _) (hsigned hds hne)

theorem exists_of_year? {year : Int} {cs rest : List Char} (h : year? cs = some (year, rest)) :
    ∃ ys, YearText year ys ∧ cs = ys ++ rest := by
  obtain ⟨blanks, hblanks, hcs⟩ := exists_blanks cs
  unfold year? at h
  split at h
  · next signed heq =>
    obtain ⟨⟨n, left⟩, hread, hfound⟩ := Option.map_eq_some_iff.1 h
    obtain ⟨rfl, rfl⟩ := Prod.mk.inj hfound
    obtain ⟨ds, hds, hne, -, rfl, rfl⟩ := exists_of_digits? hread
    exact ⟨_, .minus hblanks hds hne, by rw [hcs, heq]; simp⟩
  · next signed heq =>
    obtain ⟨⟨n, left⟩, hread, hfound⟩ := Option.map_eq_some_iff.1 h
    obtain ⟨rfl, rfl⟩ := Prod.mk.inj hfound
    obtain ⟨ds, hds, hne, -, rfl, rfl⟩ := exists_of_digits? hread
    exact ⟨_, .plus hblanks hds hne, by rw [hcs, heq]; simp⟩
  · obtain ⟨⟨n, left⟩, hread, hfound⟩ := Option.map_eq_some_iff.1 h
    obtain ⟨rfl, rfl⟩ := Prod.mk.inj hfound
    obtain ⟨ns, hns, hcs'⟩ := exists_of_number? (show number? 4 cs = some (n, left) from hread)
    exact ⟨ns, .bare hns, hcs'⟩

/-! ## Dates -/

/-- A year, a month and a day, with hyphens between them. -/
def DateText (d : Date) (cs : List Char) : Prop :=
  ∃ year month day, YearText d.year year ∧ NumberText 2 d.month month ∧ NumberText 2 d.day day ∧
    cs = year ++ '-' :: (month ++ '-' :: day)

theorem Date.of?_self (d : Date) : Date.of? d.year d.month d.day = some d :=
  dif_pos d.isReal

theorem numbers_of_of? {year : Int} {month day : Nat} {d : Date}
    (h : Date.of? year month day = some d) : year = d.year ∧ month = d.month ∧ day = d.day := by
  unfold Date.of? at h
  split at h
  · cases h
    exact ⟨rfl, rfl, rfl⟩
  · cases h

theorem mark?_self (c : Char) (cs : List Char) : mark? c (c :: cs) = some cs :=
  if_pos rfl

theorem eq_of_mark? {c : Char} {cs rest : List Char} (h : mark? c cs = some rest) :
    cs = c :: rest := by
  cases cs with
  | nil => cases h
  | cons d cs =>
    change (if d = c then some cs else none) = some rest at h
    split at h
    · next hd => rw [hd, Option.some.inj h]
    · cases h

theorem closed_of_mark {c : Char} (h : c.isDigit = false) (cs : List Char) : Closed (c :: cs) :=
  fun _ hc => Option.some.inj hc ▸ h

theorem datePart?_append {d : Date} {cs rest : List Char} (h : DateText d cs)
    (hrest : Closed rest) : datePart? (cs ++ rest) = some (d, rest) := by
  obtain ⟨year, month, day, hyear, hmonth, hday, rfl⟩ := h
  have hhyphen (cs : List Char) : Closed ('-' :: cs) := closed_of_mark (by decide) cs
  simp only [datePart?, List.append_assoc, List.cons_append, year?_append hyear (hhyphen _),
    number?_append hmonth (hhyphen _), number?_append hday hrest, mark?_self, Date.of?_self,
    Option.bind_eq_bind, Option.bind_some, pure]

theorem exists_of_datePart? {d : Date} {cs rest : List Char}
    (h : datePart? cs = some (d, rest)) : ∃ ds, DateText d ds ∧ cs = ds ++ rest := by
  obtain ⟨⟨year, cs₁⟩, hyear, h⟩ := Option.bind_eq_some_iff.1 h
  obtain ⟨cs₂, hmark, h⟩ := Option.bind_eq_some_iff.1 h
  obtain ⟨⟨month, cs₃⟩, hmonth, h⟩ := Option.bind_eq_some_iff.1 h
  obtain ⟨cs₄, hmark', h⟩ := Option.bind_eq_some_iff.1 h
  obtain ⟨⟨day, cs₅⟩, hday, h⟩ := Option.bind_eq_some_iff.1 h
  obtain ⟨d', hd, h⟩ := Option.bind_eq_some_iff.1 h
  obtain ⟨rfl, rfl⟩ := Prod.mk.inj (Option.some.inj h)
  obtain ⟨rfl, rfl, rfl⟩ := numbers_of_of? hd
  obtain ⟨ys, hys, rfl⟩ := exists_of_year? hyear
  obtain ⟨ms, hms, rfl⟩ := exists_of_number? hmonth
  obtain ⟨ds, hds, rfl⟩ := exists_of_number? hday
  refine ⟨_, ⟨ys, ms, ds, hys, hms, hds, rfl⟩, ?_⟩
  rw [eq_of_mark? hmark, eq_of_mark? hmark']
  simp

/-- What is read as a date. -/
theorem date?_eq_some_iff {s : String} {d : Date} : date? s = some d ↔ DateText d s.toList := by
  unfold date?
  constructor
  · intro h
    split at h
    · next e hread =>
      cases h
      obtain ⟨ds, hds, hs⟩ := exists_of_datePart? hread
      rw [hs, List.append_nil]
      exact hds
    · cases h
  · intro h
    have hread : datePart? (s.toList ++ []) = some (d, []) := datePart?_append h nofun
    rw [List.append_nil] at hread
    rw [hread]

/-! ## Times of day -/

/-- Nothing for a whole second, or a point and any digits, of which nine count. -/
def FractionText (nano : Nat) (cs : List Char) : Prop :=
  cs = [] ∧ nano = 0 ∨ ∃ ds, cs = '.' :: ds ∧ Digits ds ∧ ds ≠ [] ∧
    nano = ofDigits (ds.take 9) * 10 ^ (9 - (ds.take 9).length)

/-- An hour, a minute and a second, with colons between them, and a fraction. -/
def TimeText (t : Time) (cs : List Char) : Prop :=
  ∃ hour minute second fraction, NumberText 2 t.hour hour ∧ NumberText 2 t.minute minute ∧
    NumberText 2 t.second second ∧ FractionText t.nano fraction ∧
    cs = hour ++ ':' :: (minute ++ ':' :: (second ++ fraction))

/-- A date and a time of day, with the letter between them. -/
def MomentText (m : Moment) (cs : List Char) : Prop :=
  ∃ date time, DateText m.date date ∧ TimeText m.time time ∧ cs = date ++ 'T' :: time

theorem Time.of?_self (t : Time) : Time.of? t.hour t.minute t.second t.nano = some t :=
  dif_pos t.isReal

theorem numbers_of_time {hour minute second nano : Nat} {t : Time}
    (h : Time.of? hour minute second nano = some t) :
    hour = t.hour ∧ minute = t.minute ∧ second = t.second ∧ nano = t.nano := by
  unfold Time.of? at h
  split at h
  · cases h
    exact ⟨rfl, rfl, rfl, rfl⟩
  · cases h

theorem fractionPart?_eq_some_iff {cs : List Char} {nano : Nat} :
    fractionPart? cs = some (nano, []) ↔ FractionText nano cs := by
  constructor
  · intro h
    unfold fractionPart? at h
    split at h
    · next ds =>
      dsimp only at h
      split at h
      · cases h
      · next hne =>
        obtain ⟨hnano, hrest⟩ := Prod.mk.inj (Option.some.inj h)
        have hall : ds.takeWhile Char.isDigit = ds :=
          (List.takeWhile_prefix _).eq_of_length_le (List.drop_eq_nil_iff.1 hrest)
        rw [hall] at hne hnano
        exact .inr ⟨ds, rfl, List.takeWhile_eq_self_iff.1 hall, by simpa using hne, hnano.symm⟩
    · obtain ⟨rfl, rfl⟩ := Prod.mk.inj (Option.some.inj h)
      exact .inl ⟨rfl, rfl⟩
  · rintro (⟨rfl, rfl⟩ | ⟨ds, rfl, hds, hne, rfl⟩)
    · rfl
    · have htaken : ds.takeWhile Char.isDigit = ds := List.takeWhile_eq_self_iff.2 hds
      simp [fractionPart?, htaken, hne]

theorem timePart?_of_timeText {t : Time} {cs : List Char} (h : TimeText t cs) :
    timePart? cs = some (t, []) := by
  obtain ⟨hour, minute, second, fraction, hhour, hminute, hsecond, hfraction, rfl⟩ := h
  have hcolon (cs : List Char) : Closed (':' :: cs) := closed_of_mark (by decide) cs
  have hend : Closed fraction := by
    rcases hfraction with ⟨rfl, -⟩ | ⟨ds, rfl, -⟩
    · exact fun _ hc => by cases hc
    · exact closed_of_mark (by decide) ds
  simp only [timePart?, number?_append hhour (hcolon _), number?_append hminute (hcolon _),
    number?_append hsecond hend, mark?_self, fractionPart?_eq_some_iff.2 hfraction, Time.of?_self,
    Option.bind_eq_bind, Option.bind_some, pure]

theorem timeText_of_timePart? {t : Time} {cs : List Char} (h : timePart? cs = some (t, [])) :
    TimeText t cs := by
  obtain ⟨⟨hour, cs₁⟩, hhour, h⟩ := Option.bind_eq_some_iff.1 h
  obtain ⟨cs₂, hmark, h⟩ := Option.bind_eq_some_iff.1 h
  obtain ⟨⟨minute, cs₃⟩, hminute, h⟩ := Option.bind_eq_some_iff.1 h
  obtain ⟨cs₄, hmark', h⟩ := Option.bind_eq_some_iff.1 h
  obtain ⟨⟨second, cs₅⟩, hsecond, h⟩ := Option.bind_eq_some_iff.1 h
  obtain ⟨⟨nano, cs₆⟩, hnano, h⟩ := Option.bind_eq_some_iff.1 h
  obtain ⟨t', ht, h⟩ := Option.bind_eq_some_iff.1 h
  obtain ⟨rfl, rfl⟩ := Prod.mk.inj (Option.some.inj h)
  obtain ⟨rfl, rfl, rfl, rfl⟩ := numbers_of_time ht
  obtain ⟨hs, hhs, rfl⟩ := exists_of_number? hhour
  obtain ⟨ms, hms, rfl⟩ := exists_of_number? hminute
  obtain ⟨ss, hss, rfl⟩ := exists_of_number? hsecond
  refine ⟨hs, ms, ss, cs₅, hhs, hms, hss, fractionPart?_eq_some_iff.1 hnano, ?_⟩
  rw [eq_of_mark? hmark, eq_of_mark? hmark']

/-- What is read as a moment. -/
theorem moment?_eq_some_iff {s : String} {m : Moment} :
    moment? s = some m ↔ MomentText m s.toList := by
  constructor
  · intro h
    obtain ⟨⟨date, cs₁⟩, hdate, h⟩ := Option.bind_eq_some_iff.1 h
    obtain ⟨cs₂, hmark, h⟩ := Option.bind_eq_some_iff.1 h
    obtain ⟨⟨time, cs₃⟩, htime, h⟩ := Option.bind_eq_some_iff.1 h
    dsimp only at h
    split at h
    · next hempty =>
      cases h
      obtain rfl := List.isEmpty_iff.1 hempty
      obtain ⟨ds, hds, hs⟩ := exists_of_datePart? hdate
      rw [hs, eq_of_mark? hmark]
      exact ⟨ds, cs₂, hds, timeText_of_timePart? htime, rfl⟩
    · cases h
  · rintro ⟨date, time, hdate, htime, hs⟩
    have hletter : Closed ('T' :: time) := closed_of_mark (by decide) time
    simp only [moment?, hs, datePart?_append hdate hletter, mark?_self,
      timePart?_of_timeText htime, Option.bind_eq_bind, Option.bind_some]
    rfl

/-! ## Plain texts -/

/-- A number with exactly so many digits. -/
def Plain (width n : Nat) (cs : List Char) : Prop :=
  cs.length = width ∧ Digits cs ∧ ofDigits cs = n

/-- A date with four, two and two digits. -/
def PlainDate (d : Date) (cs : List Char) : Prop :=
  ∃ (n : Nat) (year month day : List Char), d.year = n ∧ Plain 4 n year ∧ Plain 2 d.month month ∧
    Plain 2 d.day day ∧ cs = year ++ '-' :: (month ++ '-' :: day)

/-- Hour, minute and second with two digits each. -/
def PlainClock (t : Time) (cs : List Char) : Prop :=
  ∃ hour minute second, Plain 2 t.hour hour ∧ Plain 2 t.minute minute ∧ Plain 2 t.second second ∧
    cs = hour ++ ':' :: (minute ++ ':' :: second)

/-- A plain date, a plain time of day, and a fraction. -/
def PlainMoment (m : Moment) (fraction cs : List Char) : Prop :=
  ∃ date clock, PlainDate m.date date ∧ PlainClock m.time clock ∧
    FractionText m.time.nano fraction ∧ cs = date ++ 'T' :: (clock ++ fraction)

section Plain

variable {width n : Nat} {cs rest : List Char} {d : Date} {t : Time} {m : Moment}

theorem ofDigits_eq_ofDigitChars (ds : List Char) : ofDigits ds = Nat.ofDigitChars 10 ds 0 := by
  simp only [ofDigits, Nat.ofDigitChars, Nat.mul_comm]

theorem Plain.lt (h : Plain width n cs) : n < 10 ^ width := by
  obtain ⟨rfl, hdigits, rfl⟩ := h
  exact (digits_ofDigits hdigits).2

theorem Plain.ne_nil (h : Plain width n cs) (hwidth : 0 < width) : cs ≠ [] :=
  List.ne_nil_of_length_pos (h.1.symm ▸ hwidth)

theorem Plain.numberText (h : Plain width n cs) (hwidth : 0 < width) : NumberText width n cs :=
  ⟨[], cs, List.forall_mem_nil _, h.2.1, h.ne_nil hwidth, h.1.le, rfl, h.2.2.symm⟩

/-- A number of its width is shown as it was written. -/
theorem plain_iff (hwidth : 0 < width) :
    Plain width n cs ↔ n < 10 ^ width ∧ (padded width n).toList = cs := by
  constructor
  · intro h
    refine ⟨h.lt, ?_⟩
    obtain ⟨hlength, hdigits, hn⟩ := h
    rw [toList_padded_eq_digits hwidth (hn ▸ hlength ▸ (digits_ofDigits hdigits).2), ← hn,
      ← hlength]
    exact (digits_ofDigits hdigits).1
  · rintro ⟨hlt, rfl⟩
    refine ⟨?_, fun c => isDigit_of_mem_padded, ?_⟩
    · rw [toList_padded_eq_digits hwidth hlt, length_digits]
    · rw [ofDigits_eq_ofDigitChars, ofDigitChars_padded]

theorem plain_padded_two (h : n < 100) : Plain 2 n (padded 2 n).toList :=
  (plain_iff (by decide)).2 ⟨h, rfl⟩

/-- A number of its full width is read whatever comes next. -/
theorem Plain.number?_append (h : Plain width n cs) (hwidth : 0 < width) (rest : List Char) :
    number? width (cs ++ rest) = some (n, rest) := by
  have hne := h.ne_nil hwidth
  obtain ⟨hlength, hdigits, rfl⟩ := h
  have hblanks : dropBlanks (cs ++ rest) = cs ++ rest :=
    dropBlanks_digits (List.forall_mem_nil _) hdigits hne
  rw [number?, hblanks]
  exact digits?_append hdigits hne hlength.le (.inl hlength)

theorem Date.month_lt (d : Date) : d.month < 100 := by
  have := d.isReal
  omega

theorem Date.day_lt (d : Date) : d.day < 100 := by
  have hreal := d.isReal
  have hle := daysInMonth_le d.year d.month
  omega

/-- A date is plain when its year has four digits, and is shown as it was written. -/
theorem plainDate_iff :
    PlainDate d cs ↔ (0 ≤ d.year ∧ d.year ≤ 9999) ∧ d.iso.toList = cs := by
  have hfour : 0 < 4 := by decide
  have htwo : 0 < 2 := by decide
  constructor
  · rintro ⟨n, year, month, day, hn, hyear, hmonth, hday, rfl⟩
    have hlt := hyear.lt
    have hrange : 0 ≤ d.year ∧ d.year ≤ 9999 := by omega
    refine ⟨hrange, ?_⟩
    rw [plain_iff hfour] at hyear
    rw [plain_iff htwo] at hmonth hday
    have hshown : yearText d.year = padded 4 n := by rw [yearText, if_pos hrange, hn]; rfl
    simp [Date.iso, hshown, ← hyear.2, ← hmonth.2, ← hday.2]
  · rintro ⟨hrange, rfl⟩
    have hyear : d.year.toNat < 10 ^ 4 := by omega
    refine ⟨d.year.toNat, _, _, _, by omega, (plain_iff hfour).2 ⟨hyear, rfl⟩,
      plain_padded_two d.month_lt, plain_padded_two d.day_lt, ?_⟩
    simp [Date.iso, yearText, hrange]

theorem plainClock_iff : PlainClock t cs ↔ t.clock.toList = cs := by
  obtain ⟨hhour, hminute, hsecond, -⟩ := t.isReal
  have htwo : 0 < 2 := by decide
  constructor
  · rintro ⟨hour, minute, second, hh, hm, hs, rfl⟩
    rw [plain_iff htwo] at hh hm hs
    simp [Time.clock, ← hh.2, ← hm.2, ← hs.2]
  · rintro rfl
    refine ⟨_, _, _, plain_padded_two (by omega), plain_padded_two (by omega),
      plain_padded_two (by omega), ?_⟩
    simp [Time.clock]

theorem PlainDate.dateText (h : PlainDate d cs) : DateText d cs := by
  obtain ⟨n, year, month, day, hn, hyear, hmonth, hday, rfl⟩ := h
  refine ⟨year, month, day, ?_, hmonth.numberText (by decide), hday.numberText (by decide), rfl⟩
  rw [hn]
  exact .bare (hyear.numberText (by decide))

theorem PlainMoment.momentText {fraction : List Char} (h : PlainMoment m fraction cs) :
    MomentText m cs := by
  obtain ⟨date, clock, hdate, ⟨hour, minute, second, hh, hm, hs, rfl⟩, hfraction, rfl⟩ := h
  exact ⟨date, _, hdate.dateText, ⟨hour, minute, second, fraction, hh.numberText (by decide),
    hm.numberText (by decide), hs.numberText (by decide), hfraction, rfl⟩, by simp⟩

end Plain

/-! ## Fractions as they are shown -/

/-- A fraction with these digits after the point: nothing when there are none. -/
def Fraction (ds cs : List Char) : Prop :=
  ds = [] ∧ cs = [] ∨ cs = '.' :: ds

/-- Two fractions are the same but for zeros at the end. -/
def SameFraction (cs cs' : List Char) : Prop :=
  ∃ ds zeros zeros', Fraction (ds ++ List.replicate zeros '0') cs ∧
    Fraction (ds ++ List.replicate zeros' '0') cs'

/-- A text is a moment as it is shown, but for zeros at the end of the fraction. -/
def ShownBack (m : Moment) (cs : List Char) : Prop :=
  ∃ front fraction fraction', cs = front ++ fraction ∧ m.iso.toList = front ++ fraction' ∧
    SameFraction fraction fraction'

/-- A moment as it is shown, without the fraction. -/
def Moment.front (m : Moment) : List Char :=
  m.date.iso.toList ++ 'T' :: m.time.clock.toList

theorem toList_iso (m : Moment) : m.iso.toList = m.front ++ m.time.fraction.toList := by
  simp [Moment.iso, Moment.front]

/-- The digits of a number that ends in zeros. -/
theorem digits_of_dvd {v w n : Nat} (h : n % 10 ^ w = 0) :
    digits (v + w) n = digits v (n / 10 ^ w) ++ List.replicate w '0' := by
  rw [digits_add, ← digits_mod w n, h, digits_zero]

/-- Texts that are one with zeros at their ends differ in zeros at their ends. -/
theorem exists_common {xs ys : List Char} {a b : Nat}
    (h : xs ++ List.replicate a '0' = ys ++ List.replicate b '0') :
    ∃ ds zeros zeros', xs = ds ++ List.replicate zeros '0' ∧
      ys = ds ++ List.replicate zeros' '0' := by
  rcases List.append_eq_append_iff.1 h with ⟨zs, rfl, hzs⟩ | ⟨zs, rfl, hzs⟩
  · have hzeros := (List.append_eq_replicate_iff.1 hzs.symm).2.1
    exact ⟨xs, 0, zs.length, by simp, by rw [← hzeros]⟩
  · have hzeros := (List.append_eq_replicate_iff.1 hzs.symm).2.1
    exact ⟨ys, zs.length, 0, by rw [← hzeros], by simp⟩

/-- The nine digits of a fraction are those that are shown, and zeros. -/
theorem exists_fraction (t : Time) : ∃ es zeros, Fraction es t.fraction.toList ∧
    digits 9 t.nano = es ++ List.replicate zeros '0' := by
  have hnano := t.isReal.2.2.2
  unfold Time.fraction
  by_cases h0 : t.nano = 0
  · exact ⟨[], 9, .inl ⟨rfl, by simp [h0]⟩, by rw [h0, digits_zero]; rfl⟩
  by_cases h1 : t.nano % 1000000 = 0
  · refine ⟨_, 6, .inr ?_, digits_of_dvd (v := 3) (w := 6) h1⟩
    rw [← toList_padded_eq_digits (by decide) (by omega)]
    simp [h0, h1]
  by_cases h2 : t.nano % 1000 = 0
  · refine ⟨_, 3, .inr ?_, digits_of_dvd (v := 6) (w := 3) h2⟩
    rw [← toList_padded_eq_digits (by decide) (by omega)]
    simp [h0, h1, h2]
  · refine ⟨_, 0, .inr ?_, (List.append_nil _).symm⟩
    rw [← toList_padded_eq_digits (by decide) hnano]
    simp [h0, h1, h2]

/-- A fraction of at most nine digits is shown, but for zeros at the end. -/
theorem sameFraction_of_fractionText {t : Time} {cs : List Char} (h : FractionText t.nano cs)
    (hnine : cs.length ≤ 10) : SameFraction cs t.fraction.toList := by
  obtain ⟨es, zeros, hes, hdigits⟩ := exists_fraction t
  rcases h with ⟨rfl, hnano⟩ | ⟨ds, rfl, hds, -, hnano⟩
  · refine ⟨[], 0, es.length, .inl ⟨rfl, rfl⟩, ?_⟩
    rw [hnano, digits_zero] at hdigits
    rw [List.nil_append, ← (List.append_eq_replicate_iff.1 hdigits.symm).2.1]
    exact hes
  · have hlength : ds.length ≤ 9 := Nat.le_of_succ_le_succ hnine
    rw [List.take_of_length_le hlength] at hnano
    obtain ⟨hread, -⟩ := digits_ofDigits hds
    have hpos : 0 < 10 ^ (9 - ds.length) := Nat.pow_pos (by decide)
    have hnine' : digits 9 t.nano = ds ++ List.replicate (9 - ds.length) '0' := by
      have hsplit := digits_of_dvd (v := ds.length) (w := 9 - ds.length) (n := t.nano)
        (by rw [hnano]; exact Nat.mul_mod_left ..)
      rw [hnano, Nat.mul_div_cancel _ hpos, hread, ← hnano] at hsplit
      rwa [Nat.add_sub_cancel' hlength] at hsplit
    obtain ⟨common, z, z', rfl, rfl⟩ := exists_common (hnine'.symm.trans hdigits)
    exact ⟨common, z, z', .inr rfl, hes⟩

/-- A plain moment with at most nine digits after the point is shown as it was written, but for
    zeros at the end. -/
theorem PlainMoment.shownBack {m : Moment} {fraction cs : List Char}
    (h : PlainMoment m fraction cs) (hnine : fraction.length ≤ 10) : ShownBack m cs := by
  obtain ⟨date, clock, hdate, hclock, hfraction, rfl⟩ := h
  refine ⟨m.front, fraction, _, ?_, toList_iso m, sameFraction_of_fractionText hfraction hnine⟩
  simp [Moment.front, (plainDate_iff.1 hdate).2, plainClock_iff.1 hclock]

/-- What follows a plain time of day that is read is a fraction. -/
theorem fractionText_of_timePart? {t u : Time} {clock cs : List Char} (hclock : PlainClock t clock)
    (h : timePart? (clock ++ cs) = some (u, [])) : FractionText u.nano cs := by
  obtain ⟨hour, minute, second, hhour, hminute, hsecond, rfl⟩ := hclock
  simp only [timePart?, List.append_assoc, List.cons_append,
    hhour.number?_append Nat.two_pos, hminute.number?_append Nat.two_pos,
    hsecond.number?_append Nat.two_pos, mark?_self, Option.bind_eq_bind, Option.bind_some] at h
  obtain ⟨⟨nano, rest⟩, hnano, h⟩ := Option.bind_eq_some_iff.1 h
  obtain ⟨u', hu, h⟩ := Option.bind_eq_some_iff.1 h
  obtain ⟨rfl, rfl⟩ := Prod.mk.inj (Option.some.inj h)
  rw [← (numbers_of_time hu).2.2.2]
  exact fractionPart?_eq_some_iff.1 hnano

theorem mem_yearText {year : Int} {c : Char} (h : c ∈ (yearText year).toList) :
    c.isDigit = true ∨ c = '+' ∨ c = '-' := by
  obtain ⟨sign, hsign, hyear⟩ := toList_yearText year
  rw [hyear] at h
  rcases List.mem_append.1 h with h | h
  · cases hsign with
    | bare => cases h
    | plus => exact .inr (.inl (List.mem_singleton.1 h))
    | minus => exact .inr (.inr (List.mem_singleton.1 h))
  · exact .inl (isDigit_of_mem_padded h)

theorem mem_iso {d : Date} {c : Char} (h : c ∈ d.iso.toList) :
    c.isDigit = true ∨ c = '+' ∨ c = '-' := by
  simp only [Date.iso, String.toList_append, List.mem_append] at h
  rcases h with (((h | h) | h) | h) | h
  · exact mem_yearText h
  · exact .inr (.inr (List.mem_singleton.1 h))
  · exact .inl (isDigit_of_mem_padded h)
  · exact .inr (.inr (List.mem_singleton.1 h))
  · exact .inl (isDigit_of_mem_padded h)

theorem mem_clock {t : Time} {c : Char} (h : c ∈ t.clock.toList) : c.isDigit = true ∨ c = ':' := by
  simp only [Time.clock, String.toList_append, List.mem_append] at h
  rcases h with (((h | h) | h) | h) | h
  · exact .inl (isDigit_of_mem_padded h)
  · exact .inr (List.mem_singleton.1 h)
  · exact .inl (isDigit_of_mem_padded h)
  · exact .inr (List.mem_singleton.1 h)
  · exact .inl (isDigit_of_mem_padded h)

theorem point_not_mem_front (m : Moment) : '.' ∉ m.front := by
  intro h
  rcases List.mem_append.1 h with h | h
  · exact absurd (mem_iso h) (by decide)
  · rcases List.mem_cons.1 h with h | h
    · exact absurd h (by decide)
    · exact absurd (mem_clock h) (by decide)

theorem Fraction.head {ds cs : List Char} (h : Fraction ds cs) : ∀ c ∈ cs.head?, c = '.' := by
  rcases h with ⟨-, rfl⟩ | rfl
  · exact fun _ hc => by cases hc
  · exact fun _ hc => (Option.some.inj hc).symm

/-- A text that is a moment as it is shown starts as the moment does. -/
theorem ShownBack.exists_rest {m : Moment} {cs : List Char} (h : ShownBack m cs) :
    ∃ rest, cs = m.front ++ rest := by
  obtain ⟨front, fraction, fraction', rfl, hiso, ds, z, z', -, hfraction'⟩ := h
  rw [toList_iso] at hiso
  rcases List.append_eq_append_iff.1 hiso with ⟨more, rfl, -⟩ | ⟨more, hfront, hmore⟩
  · exact ⟨more ++ fraction, List.append_assoc ..⟩
  · cases more with
    | nil => exact ⟨fraction, by rw [hfront, List.append_nil]⟩
    | cons c more =>
      -- the point would stand before the fraction
      have hc : c = '.' := hfraction'.head c (hmore ▸ rfl)
      exact absurd (show '.' ∈ m.front by simp [hfront, hc]) (point_not_mem_front m)

/-- A moment that is shown as it was written is plain. -/
theorem ShownBack.plain {s : String} {m : Moment} (h : ShownBack m s.toList)
    (hread : moment? s = some m) (hyear : 0 ≤ m.date.year ∧ m.date.year ≤ 9999) :
    ∃ fraction, PlainMoment m fraction s.toList := by
  obtain ⟨fraction, hs⟩ := h.exists_rest
  have hdate : PlainDate m.date m.date.iso.toList := plainDate_iff.2 ⟨hyear, rfl⟩
  have hclock : PlainClock m.time m.time.clock.toList := plainClock_iff.2 rfl
  have hletter (cs : List Char) : Closed ('T' :: cs) := closed_of_mark (by decide) cs
  rw [Moment.front, List.append_assoc, List.cons_append] at hs
  simp only [moment?, hs, datePart?_append hdate.dateText (hletter _), mark?_self,
    Option.bind_eq_bind, Option.bind_some] at hread
  obtain ⟨⟨time, rest⟩, htime, hread⟩ := Option.bind_eq_some_iff.1 hread
  dsimp only at hread
  split at hread
  · next hempty =>
    obtain rfl := List.isEmpty_iff.1 hempty
    obtain rfl : time = m.time := congrArg Moment.time (Option.some.inj hread)
    exact ⟨fraction, _, _, hdate, hclock, fractionText_of_timePart? hclock htime, hs⟩
  · cases hread

/-! ## Widths -/

theorem le_length_padded (width n : Nat) : width ≤ (padded width n).toList.length := by
  rw [toList_padded, List.length_append, List.length_replicate]
  omega

/-- A date takes ten characters when its year has four digits, and more otherwise. -/
theorem length_iso (d : Date) :
    (0 ≤ d.year ∧ d.year ≤ 9999) ∧ d.iso.toList.length = 10 ∨
      ¬ (0 ≤ d.year ∧ d.year ≤ 9999) ∧ 10 < d.iso.toList.length := by
  have hlength : d.iso.toList.length = (yearText d.year).toList.length + 6 := by
    simp [Date.iso, length_padded_two d.month_lt, length_padded_two d.day_lt]
  rw [hlength, yearText]
  by_cases hrange : 0 ≤ d.year ∧ d.year ≤ 9999
  · have hlt : d.year.toNat < 10 ^ 4 := by omega
    refine .inl ⟨hrange, ?_⟩
    rw [if_pos hrange, toList_padded_eq_digits (by decide) hlt, length_digits]
  · refine .inr ⟨hrange, ?_⟩
    have hle := le_length_padded 4 d.year.natAbs
    rw [if_neg hrange, String.toList_append, List.length_append]
    split <;> simp <;> omega

theorem length_clock (t : Time) : t.clock.toList.length = 8 := by
  obtain ⟨hhour, hminute, hsecond, -⟩ := t.isReal
  simp [Time.clock, length_padded_two (show t.hour < 100 by omega),
    length_padded_two (show t.minute < 100 by omega),
    length_padded_two (show t.second < 100 by omega)]

end Waybill.Calendar
