/-
  JSON numbers: what they denote, and how they are written.

  A number without fraction and exponent is an integer when it lies between `-2 ^ 63` and
  `2 ^ 64 - 1`; minus zero and all others are floating.  A floating number is read from at most
  64 bits of its leading digits, the rest of them counting only by their place, scaled by powers
  of ten in floating arithmetic; one too large denotes nothing.

  * `Json.ofDigits` is the value of a number given by its parts;
  * `Json.floatText` writes a floating number: a point always, an exponent outside of
    `10 ^ -5` to `10 ^ 16`.
-/
import Waybill.Json.Basic
import Waybill.Decimal.Shortest

namespace Waybill.Json

/-! ## Reading -/

/-- The significand as a floating number, times a power of ten: scaled in steps of at most
    `10 ^ 308`, and nothing when it grows beyond all floating numbers. -/
def scaled : Nat → Float → Int → Option Float
  | 0, _, _ => some 0
  | steps + 1, x, e =>
    if e.natAbs ≤ 308 then
      let ten := Float.ofScientific 1 false e.natAbs
      if 0 ≤ e then
        let y := x * ten
        if y.isInf then none else some y
      else some (x / ten)
    else if x == 0 then some x
    else if 0 ≤ e then none
    else scaled steps (x / Float.ofScientific 1 false 308) (e + 308)

/-- The leading digits that fit into 64 bits, as a number, and how many digits follow them. -/
def leading (acc : Nat) : List Char → Nat × Nat
  | [] => (acc, 0)
  | d :: ds =>
    let next := acc * 10 + (d.toNat - '0'.toNat)
    if next < 2 ^ 64 then leading next ds else (acc, ds.length + 1)

/-- The floating number with a sign, digits before and after the point, and an exponent. -/
def floating (negative : Bool) (whole fraction : List Char) (e : Int) : Json :=
  let before := leading 0 whole
  let after := if before.2 = 0 then leading before.1 fraction else (before.1, fraction.length)
  let shift := Int.ofNat before.2 - Int.ofNat (fraction.length - after.2)
  match scaled 4 (UInt64.ofNat after.1).toFloat (e + shift) with
  | none => .unreadable
  | some x => .float (if negative then -x else x)

/-- The value of a number given by its sign, the digits before the point, those after it if
    there is a point, and the exponent if there is one. -/
def ofDigits (negative : Bool) (whole : List Char) (fraction : Option (List Char))
    (exponent : Option Int) : Json :=
  match fraction, exponent with
  | none, none =>
    let n := (leading 0 whole).1
    if (leading 0 whole).2 ≠ 0 then floating negative whole [] 0
    else if negative then
      if n = 0 ∨ 2 ^ 63 < n then floating true whole [] 0 else .int (-Int.ofNat n)
    else .int n
  | _, _ => floating negative whole (fraction.getD []) (exponent.getD 0)

/-! ## Writing -/

/-- The shortest digits of a positive number, with a point after the first `place` of them. -/
def pointAt (ds : List Char) (place : Int) : List Char :=
  if place ≤ 0 then '0' :: '.' :: (List.replicate (-place).toNat '0' ++ ds)
  else if place.toNat < ds.length then ds.take place.toNat ++ '.' :: ds.drop place.toNat
  else ds ++ List.replicate (place.toNat - ds.length) '0' ++ ['.', '0']

/-- Digits and an exponent, a point after the first digit if there are more. -/
def withExponent (ds : List Char) (place : Int) : List Char :=
  let mantissa := match ds with
    | [] => []
    | [d] => [d]
    | d :: more => d :: '.' :: more
  mantissa ++ 'e' :: (toString (place - 1)).toList

/-- The text of a floating number; nothing but `null` for one that is not finite. -/
def floatText (x : Float) : String :=
  if x.isNaN || x.isInf then "null"
  else
    let bits := x.toBits.toNat
    let negative := bits / 2 ^ 63 == 1
    let exponent := bits / 2 ^ 52 % 2 ^ 11
    let fraction := bits % 2 ^ 52
    let m := if exponent == 0 then fraction else fraction + 2 ^ 52
    let body :=
      if m == 0 then ['0', '.', '0']
      else
        let q := Decimal.binary64.minExp + Int.ofNat (exponent - 1)
        let found := (Decimal.spread m q (fraction == 0 && 1 < exponent)).shortest
        let ds := Decimal.digits found.1
        let place := found.2 + Int.ofNat ds.length
        if -5 < place && place ≤ 16 then pointAt ds place else withExponent ds place
    String.ofList (if negative then '-' :: body else body)

end Waybill.Json
