/-
  Instants: moments in universal time.

  * `Instant.stored` is the text by which instants are kept and ordered, `Instant.zulu` the
    text by which they are shown, `Instant.stamp` the fourteen digits used in file names;
  * `Instant.ofZoned?` reads a moment with an offset from universal time;
  * `Instant.ofEpoch` counts seconds from the start of 1970.
-/
import Waybill.Calendar.Reading

namespace Waybill.Calendar

/-- A moment in universal time. -/
structure Instant where
  moment : Moment
  deriving DecidableEq, Inhabited

namespace Instant

/-! ## Texts -/

/-- The text an instant is kept as: its order is the order of instants. -/
def stored (i : Instant) : String :=
  i.moment.date.iso ++ " " ++ i.moment.time.clock ++ i.moment.time.fraction ++ "+00:00"

/-- The text an instant is shown as. -/
def zulu (i : Instant) : String :=
  i.moment.iso ++ "Z"

/-- Date and time of day in fourteen digits. -/
def stamp (i : Instant) : String :=
  let d := i.moment.date
  let t := i.moment.time
  yearText d.year ++ padded 2 d.month ++ padded 2 d.day ++
    padded 2 t.hour ++ padded 2 t.minute ++ padded 2 t.second

/-! ## Counting -/

/-- The time of day that is a number of minutes into the day. -/
def atMinute (t : Time) (minutes : Nat) (h : minutes < 1440) : Time :=
  { t with
    hour := minutes / 60
    minute := minutes % 60
    isReal := ⟨by omega, by omega, t.isReal.2.2.1, t.isReal.2.2.2⟩ }

/-- The moment a number of minutes later, or earlier when it is negative; less than a day. -/
def shift (m : Moment) (minutes : Int) : Moment :=
  let total := Int.ofNat (m.time.hour * 60 + m.time.minute) + minutes
  let date := if total < 0 then m.date.previous else if total < 1440 then m.date else m.date.next
  let within := (total % 1440).toNat
  ⟨date, atMinute m.time within (by omega)⟩

/-- The date a number of days after another. -/
def daysAfter (d : Date) : Nat → Date
  | 0 => d
  | n + 1 => daysAfter d.next n

/-- The instant a number of seconds and nanoseconds after the start of 1970. -/
def ofEpoch (seconds nanos : Nat) : Instant :=
  let within := seconds % 86400
  let time : Time :=
    { hour := within / 3600
      minute := within / 60 % 60
      second := within % 60
      nano := nanos % 1000000000
      isReal := ⟨by omega, by omega, by omega, Nat.mod_lt _ (by decide)⟩ }
  ⟨⟨daysAfter .epoch (seconds / 86400), time⟩⟩

/-! ## Reading -/

/-- Exactly `n` digits. -/
def exactly? (n : Nat) (cs : List Char) : Option (Nat × List Char) :=
  if (cs.take n).length = n ∧ (cs.take n).all Char.isDigit then
    some (ofDigits (cs.take n), cs.drop n)
  else none

/-- The offset from universal time in minutes: the letter for none, or hours and minutes with
    a sign. -/
def offset? : List Char → Option Int
  | ['Z'] | ['z'] => some 0
  | sign :: cs => do
    let (hours, cs) ← exactly? 2 cs
    let cs ← mark? ':' cs
    let (minutes, cs) ← exactly? 2 cs
    if ¬ cs.isEmpty ∨ 60 ≤ minutes ∨ 24 ≤ hours then none
    else if sign = '+' then some (Int.ofNat (hours * 60 + minutes))
    else if sign = '-' ∨ sign = '−' then some (-Int.ofNat (hours * 60 + minutes))
    else none
  | [] => none

/-- A date and a time of day, each number at its full width, and the offset. -/
def ofZoned? (s : String) : Option Instant := do
  let (year, cs) ← exactly? 4 s.toList
  let cs ← mark? '-' cs
  let (month, cs) ← exactly? 2 cs
  let cs ← mark? '-' cs
  let (day, cs) ← exactly? 2 cs
  let cs ← match cs with
    | 'T' :: cs | 't' :: cs | ' ' :: cs => some cs
    | _ => none
  let (hour, cs) ← exactly? 2 cs
  let cs ← mark? ':' cs
  let (minute, cs) ← exactly? 2 cs
  let cs ← mark? ':' cs
  let (second, cs) ← exactly? 2 cs
  let (nano, cs) ← fractionPart? cs
  let date ← Date.of? year month day
  let time ← Time.of? hour minute second nano
  return ⟨shift ⟨date, time⟩ (-(← offset? cs))⟩

end Instant

end Waybill.Calendar
