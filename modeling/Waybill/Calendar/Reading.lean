/-
  Reading dates and times from text.

  A number may follow blanks and has at most as many digits as its field; a year may have a
  sign, and then any number of digits.  A fraction of a second has at least one digit, and those
  after the ninth do not count.

  * `date?` reads a whole text as `year-month-day`;
  * `moment?` reads a whole text as a date, the letter `T`, hour, minute and second, and
    perhaps a fraction.
-/
import Waybill.Calendar.Date
import Waybill.Instances
import Waybill.Text.Blank

namespace Waybill.Calendar

open Waybill.Text

/-! ## Numbers -/

/-- The number that digits denote. -/
def ofDigits (ds : List Char) : Nat :=
  ds.foldl (fun n d => n * 10 + (d.toNat - '0'.toNat)) 0

/-- At least one and at most `width` digits. -/
def digits? (width : Nat) (cs : List Char) : Option (Nat × List Char) :=
  let ds := (cs.take width).takeWhile Char.isDigit
  if ds.isEmpty then none else some (ofDigits ds, cs.drop ds.length)

/-- A number of at most `width` digits, after any blanks. -/
def number? (width : Nat) (cs : List Char) : Option (Nat × List Char) :=
  digits? width (dropBlanks cs)

/-- A year, after any blanks: up to four digits, or a sign and any number of digits. -/
def year? (cs : List Char) : Option (Int × List Char) :=
  match dropBlanks cs with
  | '-' :: cs => (digits? cs.length cs).map fun found => (-Int.ofNat found.1, found.2)
  | '+' :: cs => (digits? cs.length cs).map fun found => (Int.ofNat found.1, found.2)
  | cs => (digits? 4 cs).map fun found => (Int.ofNat found.1, found.2)

/-- The expected character. -/
def mark? (c : Char) : List Char → Option (List Char)
  | d :: cs => if d = c then some cs else none
  | [] => none

/-! ## Dates and times -/

/-- A date at the front of the text. -/
def datePart? (cs : List Char) : Option (Date × List Char) := do
  let (year, cs) ← year? cs
  let cs ← mark? '-' cs
  let (month, cs) ← number? 2 cs
  let cs ← mark? '-' cs
  let (day, cs) ← number? 2 cs
  return (← Date.of? year month day, cs)

/-- A point and the digits after it, as nanoseconds; nothing is no fraction. -/
def fractionPart? : List Char → Option (Nat × List Char)
  | '.' :: cs =>
    let ds := cs.takeWhile Char.isDigit
    if ds.isEmpty then none
    else
      let kept := ds.take 9
      some (ofDigits kept * 10 ^ (9 - kept.length), cs.drop ds.length)
  | cs => some (0, cs)

/-- A time of day at the front of the text. -/
def timePart? (cs : List Char) : Option (Time × List Char) := do
  let (hour, cs) ← number? 2 cs
  let cs ← mark? ':' cs
  let (minute, cs) ← number? 2 cs
  let cs ← mark? ':' cs
  let (second, cs) ← number? 2 cs
  let (nano, cs) ← fractionPart? cs
  return (← Time.of? hour minute second nano, cs)

/-- The whole text as a date. -/
def date? (s : String) : Option Date :=
  match datePart? s.toList with
  | some (d, []) => some d
  | _ => none

/-- The whole text as a date with a time of day. -/
def moment? (s : String) : Option Moment := do
  let (date, cs) ← datePart? s.toList
  let (time, cs) ← timePart? (← mark? 'T' cs)
  if cs.isEmpty then some ⟨date, time⟩ else none

end Waybill.Calendar
