/-
  Calendar dates and times of day, and their texts.

  * `Date` is a day of the Gregorian calendar, counted back before its start, and
    `Time` a time of day to the nanosecond, with room for a leap second; a value of
    either is real by a proof field;
  * `Date.iso` and `Date.french` write a date, `Moment.iso` a date with a time;
  * `Date.next` and `Date.previous` are the neighbouring days.

  Statement: `daysInMonth_pos` (every month has a day).
-/

namespace Waybill.Calendar

/-! ## Days and times -/

/-- Whether the year has a 29 February. -/
def isLeapYear (year : Int) : Bool :=
  year % 4 == 0 && (year % 100 != 0 || year % 400 == 0)

/-- The number of days of a month; none for a number that names no month. -/
def daysInMonth (year : Int) (month : Nat) : Nat :=
  if month == 2 then (if isLeapYear year then 29 else 28)
  else if month == 4 || month == 6 || month == 9 || month == 11 then 30
  else if 1 ≤ month ∧ month ≤ 12 then 31
  else 0

theorem daysInMonth_pos (year : Int) {month : Nat} (h : 1 ≤ month ∧ month ≤ 12) :
    0 < daysInMonth year month := by
  unfold daysInMonth
  split
  · split <;> decide
  · split
    · decide
    · decide

/-- A day of the calendar. -/
structure Date where
  year : Int
  month : Nat
  day : Nat
  isReal : 1 ≤ month ∧ month ≤ 12 ∧ 1 ≤ day ∧ day ≤ daysInMonth year month
  deriving DecidableEq

/-- A time of day; second 60 is a leap second. -/
structure Time where
  hour : Nat
  minute : Nat
  second : Nat
  nano : Nat
  isReal : hour < 24 ∧ minute < 60 ∧ second ≤ 60 ∧ nano < 1000000000
  deriving DecidableEq

/-- A date with a time of day. -/
structure Moment where
  date : Date
  time : Time
  deriving DecidableEq

/-- The date with these numbers, if there is one. -/
def Date.of? (year : Int) (month day : Nat) : Option Date :=
  if h : 1 ≤ month ∧ month ≤ 12 ∧ 1 ≤ day ∧ day ≤ daysInMonth year month then
    some ⟨year, month, day, h⟩
  else none

/-- The time of day with these numbers, if there is one. -/
def Time.of? (hour minute second nano : Nat) : Option Time :=
  if h : hour < 24 ∧ minute < 60 ∧ second ≤ 60 ∧ nano < 1000000000 then
    some ⟨hour, minute, second, nano, h⟩
  else none

/-- The first day of the year 1970. -/
def Date.epoch : Date := ⟨1970, 1, 1, by decide⟩

/-- The start of a day. -/
def Time.midnight : Time := ⟨0, 0, 0, 0, by decide⟩

instance : Inhabited Date := ⟨.epoch⟩
instance : Inhabited Time := ⟨.midnight⟩
instance : Inhabited Moment := ⟨⟨.epoch, .midnight⟩⟩

/-! ## Neighbouring days -/

/-- The day after. -/
def Date.next (d : Date) : Date :=
  if h : d.day + 1 ≤ daysInMonth d.year d.month then
    { d with day := d.day + 1, isReal := ⟨d.isReal.1, d.isReal.2.1, Nat.succ_pos _, h⟩ }
  else if h : d.month + 1 ≤ 12 then
    ⟨d.year, d.month + 1, 1, Nat.succ_pos _, h, Nat.le_refl 1,
      daysInMonth_pos d.year ⟨Nat.succ_pos _, h⟩⟩
  else ⟨d.year + 1, 1, 1, by decide, by decide, by decide, by simp [daysInMonth]⟩

/-- The day before. -/
def Date.previous (d : Date) : Date :=
  if h : 1 ≤ d.day - 1 then
    { d with day := d.day - 1, isReal := ⟨d.isReal.1, d.isReal.2.1, h,
        Nat.le_trans (Nat.sub_le _ _) d.isReal.2.2.2⟩ }
  else if h : 1 ≤ d.month - 1 then
    have hm : 1 ≤ d.month - 1 ∧ d.month - 1 ≤ 12 :=
      ⟨h, Nat.le_trans (Nat.sub_le _ _) d.isReal.2.1⟩
    ⟨d.year, d.month - 1, daysInMonth d.year (d.month - 1), hm.1, hm.2,
      daysInMonth_pos d.year hm, Nat.le_refl _⟩
  else ⟨d.year - 1, 12, 31, by decide, by decide, by decide, by simp [daysInMonth]⟩

/-! ## Texts -/

/-- The number in decimal, with zeros in front up to the width. -/
def padded (width n : Nat) : String :=
  let ds := Nat.toDigits 10 n
  String.ofList (List.replicate (width - ds.length) '0' ++ ds)

/-- A year: four digits, with a sign outside of the years 0 to 9999. -/
def yearText (year : Int) : String :=
  if 0 ≤ year ∧ year ≤ 9999 then padded 4 year.toNat
  else (if year < 0 then "-" else "+") ++ padded 4 year.natAbs

namespace Date

/-- Year, month and day, joined by hyphens. -/
def iso (d : Date) : String :=
  yearText d.year ++ "-" ++ padded 2 d.month ++ "-" ++ padded 2 d.day

/-- Day, month and year, joined by slashes. -/
def french (d : Date) : String :=
  padded 2 d.day ++ "/" ++ padded 2 d.month ++ "/" ++ yearText d.year

end Date

namespace Time

/-- The fraction of a second: nothing, or a point and three, six or nine digits, as few as
    hold it. -/
def fraction (t : Time) : String :=
  if t.nano == 0 then ""
  else if t.nano % 1000000 == 0 then "." ++ padded 3 (t.nano / 1000000)
  else if t.nano % 1000 == 0 then "." ++ padded 6 (t.nano / 1000)
  else "." ++ padded 9 t.nano

/-- Hour, minute and second, joined by colons. -/
def clock (t : Time) : String :=
  padded 2 t.hour ++ ":" ++ padded 2 t.minute ++ ":" ++ padded 2 t.second

end Time

/-- Date and time of day with the letter that separates them. -/
def Moment.iso (m : Moment) : String :=
  m.date.iso ++ "T" ++ m.time.clock ++ m.time.fraction

end Waybill.Calendar
