/-
  Stamps tell seconds apart.

  * `Instant.toSecond` is the second that an instant falls into.

  Statements: `padded_injective` and `yearText_injective` (a number is told from its text),
  `Instant.stamp_eq_iff` (two stamps are one exactly within one second), `Instant.mem_stamp` (what a
  stamp consists of).
-/
import Mathlib.Data.List.Basic
import Waybill.Calendar.Instant

namespace Waybill.Calendar

/-! ## Numbers -/

theorem toList_padded (width n : Nat) : (padded width n).toList =
    List.replicate (width - (Nat.toDigits 10 n).length) '0' ++ Nat.toDigits 10 n := by
  simp [padded]

theorem ofDigitChars_padded (width n : Nat) :
    Nat.ofDigitChars 10 (padded width n).toList 0 = n := by
  rw [toList_padded, Nat.ofDigitChars_append, Nat.ofDigitChars_replicate_zero, Nat.mul_zero,
    Nat.ofDigitChars_toDigits (by decide) (by decide)]

theorem padded_injective (width : Nat) : Function.Injective (padded width) := fun m n h => by
  rw [← ofDigitChars_padded width m, h, ofDigitChars_padded]

theorem isDigit_of_mem_padded {width n : Nat} {c : Char} (h : c ∈ (padded width n).toList) :
    c.isDigit = true := by
  rw [toList_padded] at h
  rcases List.mem_append.1 h with h | h
  · rw [List.eq_of_mem_replicate h]
    decide
  · exact Nat.isDigit_of_mem_toDigits (by decide) (by decide) h

theorem length_padded_two {n : Nat} (h : n < 100) : (padded 2 n).toList.length = 2 := by
  have hle : (Nat.toDigits 10 n).length ≤ 2 :=
    (Nat.length_toDigits_le_iff (by decide) (by decide)).2 h
  rw [toList_padded, List.length_append, List.length_replicate]
  omega

/-- Two digits at the end of a text are told from the text. -/
theorem eq_of_append_padded {xs ys : List Char} {m n : Nat} (hm : m < 100) (hn : n < 100)
    (h : xs ++ (padded 2 m).toList = ys ++ (padded 2 n).toList) : xs = ys ∧ m = n := by
  obtain ⟨hfront, hend⟩ :=
    List.append_inj' h ((length_padded_two hm).trans (length_padded_two hn).symm)
  exact ⟨hfront, padded_injective 2 (String.toList_injective hend)⟩

/-! ## Dates -/

theorem daysInMonth_le (year : Int) (month : Nat) : daysInMonth year month ≤ 31 := by
  unfold daysInMonth
  split
  · split <;> decide
  · split
    · decide
    · split <;> decide

theorem Date.ext_numbers {d e : Date} (hyear : d.year = e.year) (hmonth : d.month = e.month)
    (hday : d.day = e.day) : d = e := by
  cases d
  cases e
  simp_all

/-! ## Years -/

/-- A year is its digits, with no sign in front or one. -/
inductive Signed (year : Int) : List Char → Prop
  | bare (h : 0 ≤ year) : Signed year []
  | plus (h : 0 ≤ year) : Signed year ['+']
  | minus (h : year < 0) : Signed year ['-']

theorem toList_yearText (year : Int) : ∃ sign, Signed year sign ∧
    (yearText year).toList = sign ++ (padded 4 year.natAbs).toList := by
  unfold yearText
  split
  · next h => exact ⟨[], .bare h.1, by rw [show year.natAbs = year.toNat by omega]; rfl⟩
  · split
    · next h => exact ⟨['-'], .minus h, by simp⟩
    · next h => exact ⟨['+'], .plus (by omega), by simp⟩

theorem Signed.isDigit_eq_false {year : Int} {sign : List Char} (h : Signed year sign) :
    ∀ c ∈ sign, c.isDigit = false := by
  cases h <;> simp

/-- The sign is what is no digit. -/
theorem filter_yearText {year : Int} {sign : List Char} (h : Signed year sign) :
    (sign ++ (padded 4 year.natAbs).toList).filter (!·.isDigit) = sign := by
  rw [List.filter_append, List.filter_eq_self.2, List.filter_eq_nil_iff.2, List.append_nil]
  · intro c hc
    simp [isDigit_of_mem_padded hc]
  · intro c hc
    simp [h.isDigit_eq_false c hc]

theorem yearText_injective : Function.Injective yearText := by
  intro x y h
  obtain ⟨sign, hsign, hx⟩ := toList_yearText x
  obtain ⟨sign', hsign', hy⟩ := toList_yearText y
  rw [h, hy] at hx
  obtain rfl : sign' = sign := by rw [← filter_yearText hsign', hx, filter_yearText hsign]
  have habs := padded_injective 4 (String.toList_injective (List.append_cancel_left hx))
  cases hsign <;> cases hsign' <;> omega

/-! ## Stamps -/

namespace Instant

variable {i j : Instant}

/-- The second that an instant falls into. -/
def toSecond (i : Instant) : Date × Nat × Nat × Nat :=
  (i.moment.date, i.moment.time.hour, i.moment.time.minute, i.moment.time.second)

/-- **Two stamps are one exactly within one second.** -/
theorem stamp_eq_iff : i.stamp = j.stamp ↔ i.toSecond = j.toSecond := by
  constructor
  · intro h
    obtain ⟨-, hm, -, hd⟩ := i.moment.date.isReal
    obtain ⟨-, hm', -, hd'⟩ := j.moment.date.isReal
    have hle := daysInMonth_le i.moment.date.year i.moment.date.month
    have hle' := daysInMonth_le j.moment.date.year j.moment.date.month
    obtain ⟨hh, hmi, hs, -⟩ := i.moment.time.isReal
    obtain ⟨hh', hmi', hs', -⟩ := j.moment.time.isReal
    have h := congrArg String.toList h
    simp only [stamp, String.toList_append] at h
    -- the numbers are read off from the last to the first
    obtain ⟨h, hsecond⟩ := eq_of_append_padded (by omega) (by omega) h
    obtain ⟨h, hminute⟩ := eq_of_append_padded (by omega) (by omega) h
    obtain ⟨h, hhour⟩ := eq_of_append_padded (by omega) (by omega) h
    obtain ⟨h, hday⟩ := eq_of_append_padded (by omega) (by omega) h
    obtain ⟨h, hmonth⟩ := eq_of_append_padded (by omega) (by omega) h
    have hdate := Date.ext_numbers (yearText_injective (String.toList_injective h)) hmonth hday
    rw [toSecond, toSecond, hdate, hhour, hminute, hsecond]
  · intro h
    obtain ⟨hdate, hhour, hminute, hsecond⟩ : _ ∧ _ ∧ _ ∧ _ := by simpa [toSecond] using h
    rw [stamp, stamp, hdate, hhour, hminute, hsecond]

/-- A stamp consists of digits, and a sign perhaps. -/
theorem mem_stamp {c : Char} (h : c ∈ i.stamp.toList) :
    c.isDigit = true ∨ c = '+' ∨ c = '-' ∧ i.moment.date.year < 0 := by
  obtain ⟨sign, hsign, hyear⟩ := toList_yearText i.moment.date.year
  simp only [stamp, String.toList_append, List.mem_append, hyear] at h
  have hdigit : ∀ {width n : Nat}, c ∈ (padded width n).toList → c.isDigit = true :=
    isDigit_of_mem_padded
  rcases h with ((((((h | h) | h) | h) | h) | h) | h)
  · cases hsign with
    | bare => cases h
    | plus => exact Or.inr (Or.inl (List.mem_singleton.1 h))
    | minus hneg => exact Or.inr (Or.inr ⟨List.mem_singleton.1 h, hneg⟩)
  all_goals exact Or.inl (isDigit_of_mem_padded h)

end Instant

end Waybill.Calendar
