/-
  Reading decimal numbers.

  * `ofText?` reads a sign, digits with a point among them, and an exponent, as the nearest
    floating number.
-/

namespace Waybill.Decimal

/-- The number that digits denote. -/
def natOf (ds : List Char) : Nat :=
  ds.foldl (fun n d => n * 10 + (d.toNat - '0'.toNat)) 0

/-- Digits without a sign and the rest of the text. -/
def run (cs : List Char) : List Char × List Char :=
  (cs.takeWhile Char.isDigit, cs.dropWhile Char.isDigit)

/-- The exponent after its mark; no mark is no exponent. -/
def exponent? : List Char → Option Int
  | [] => some 0
  | mark :: cs =>
    if mark ≠ 'e' ∧ mark ≠ 'E' then none
    else
      let (negative, ds) := match cs with
        | '-' :: ds => (true, ds)
        | '+' :: ds => (false, ds)
        | ds => (false, ds)
      if ds.isEmpty || !ds.all Char.isDigit then none
      else some (if negative then -Int.ofNat (natOf ds) else Int.ofNat (natOf ds))

/-- The number of a text without a sign. -/
def unsigned? (cs : List Char) : Option Float := do
  let whole := run cs
  let (fraction, rest) := match whole.2 with
    | '.' :: cs => run cs
    | cs => ([], cs)
  if whole.1.isEmpty && fraction.isEmpty then none
  let e := (← exponent? rest) - Int.ofNat fraction.length
  return Float.ofScientific (natOf (whole.1 ++ fraction)) (e < 0) e.natAbs

/-- The number of a text. -/
def ofText? (s : String) : Option Float :=
  match s.toList with
  | '-' :: cs => (unsigned? cs).map fun x => -x
  | '+' :: cs => unsigned? cs
  | cs => unsigned? cs

end Waybill.Decimal
