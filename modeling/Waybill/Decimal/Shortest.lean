/-
  The shortest decimal that reads back as a given binary number.

  A finite binary number is `m · 2 ^ q` with a significand `m` of bounded length.  The numbers
  that read back as it are those between the midpoints to its two neighbours, the midpoints
  themselves included when `m` is even.  Of the multiples of a power of ten, only the two next
  to the number can be the closest inside; the largest power with one of them inside gives the
  fewest digits, of two the nearer, and the upper one when both are equally near.

  * `Spread` is a number with its two midpoints, over a common denominator;
  * `Spread.shortest` is the digits and the power of ten;
  * `positional` writes digits and a power of ten without an exponent;
  * `binary64` and `binary32` are the texts of machine numbers, given by their bits.
-/
import Waybill.Instances

namespace Waybill.Decimal

/-! ## A number between its midpoints -/

/-- A number with the midpoints to its neighbours: each of `value`, `lo` and `hi` times
    `2 ^ exp`; the midpoints read back as the number when `closed`. -/
structure Spread where
  value : Nat
  lo : Nat
  hi : Nat
  exp : Int
  closed : Bool
  deriving Repr, DecidableEq

/-- The spread of `m · 2 ^ q`; `edge` tells that the next smaller number is half as far away
    as the next larger one. -/
def spread (m : Nat) (q : Int) (edge : Bool) : Spread where
  value := 4 * m
  lo := if edge then 4 * m - 1 else 4 * m - 2
  hi := 4 * m + 2
  exp := q - 2
  closed := m % 2 == 0

namespace Spread

/-- Numerator and denominator of `base ^ e`. -/
def ratio (base : Nat) (e : Int) : Nat × Nat :=
  (base ^ e.toNat, base ^ (-e).toNat)

/-- Whether `c · 10 ^ k` reads back as the number. -/
def holds (s : Spread) (k : Int) (c : Nat) : Bool :=
  let two := ratio 2 s.exp
  let ten := ratio 10 k
  let x := c * ten.1 * two.2
  let lo := s.lo * two.1 * ten.2
  let hi := s.hi * two.1 * ten.2
  if s.closed then lo ≤ x && x ≤ hi else lo < x && x < hi

/-- The largest `c` with `c · 10 ^ k` not above the number, and whether the next one is at
    least as near. -/
def below (s : Spread) (k : Int) : Nat × Bool :=
  let two := ratio 2 s.exp
  let ten := ratio 10 k
  let num := s.value * two.1 * ten.2
  let den := ten.1 * two.2
  let c := num / den
  (c, den ≤ 2 * (num - c * den))

/-- The multiple of `10 ^ k` to be written, if one reads back as the number. -/
def onGrid (s : Spread) (k : Int) : Option Nat :=
  let found := s.below k
  match s.holds k found.1 && found.1 != 0, s.holds k (found.1 + 1) with
  | true, true => some (if found.2 then found.1 + 1 else found.1)
  | true, false => some found.1
  | false, true => some (found.1 + 1)
  | false, false => none

/-- The first grid from `10 ^ k` down, at most `fuel` steps, on which the number can be
    written. -/
def search (s : Spread) : Nat → Int → Nat × Int
  | 0, k => ((s.below k).1, k)
  | fuel + 1, k =>
    match s.onGrid k with
    | some c => (c, k)
    | none => search s fuel (k - 1)

/-- A power of ten above the number: three tenths of its binary length, and two more. -/
def top (s : Spread) : Int :=
  (Int.ofNat (Nat.log2 s.value) + s.exp) * 30103 / 100000 + 2

/-- The shortest digits and their power of ten. -/
def shortest (s : Spread) : Nat × Int :=
  s.search 24 s.top

end Spread

/-! ## Writing -/

/-- The decimal digits of a number, as text. -/
def digits (n : Nat) : List Char :=
  Nat.toDigits 10 n

/-- `c · 10 ^ k` without an exponent. -/
def positional (c : Nat) (k : Int) : List Char :=
  let ds := digits c
  if 0 ≤ k then ds ++ List.replicate k.toNat '0'
  else
    let places := (-k).toNat
    if places < ds.length then
      ds.take (ds.length - places) ++ '.' :: ds.drop (ds.length - places)
    else '0' :: '.' :: (List.replicate (places - ds.length) '0' ++ ds)

/-! ## Machine numbers -/

/-- How a machine number is laid out: bits of its fraction and of its exponent. -/
structure Layout where
  fractionBits : Nat
  exponentBits : Nat

namespace Layout

/-- The exponent of the last bit of the smallest numbers. -/
def minExp (l : Layout) : Int :=
  2 - Int.ofNat (2 ^ (l.exponentBits - 1)) - Int.ofNat l.fractionBits

/-- The text of the machine number with these bits: a minus sign when its sign bit is set,
    then its shortest digits without an exponent. -/
def text (l : Layout) (bits : Nat) : String :=
  let fraction := bits % 2 ^ l.fractionBits
  let exponent := bits / 2 ^ l.fractionBits % 2 ^ l.exponentBits
  let negative := bits / 2 ^ (l.fractionBits + l.exponentBits) % 2 == 1
  if exponent == 2 ^ l.exponentBits - 1 then
    if fraction != 0 then "NaN" else if negative then "-inf" else "inf"
  else
    let m := if exponent == 0 then fraction else fraction + 2 ^ l.fractionBits
    let q := l.minExp + Int.ofNat (exponent - 1)
    let body :=
      if m == 0 then ['0']
      else
        let found := (spread m q (fraction == 0 && 1 < exponent)).shortest
        positional found.1 found.2
    String.ofList (if negative then '-' :: body else body)

end Layout

/-- Double precision: 52 bits of fraction, 11 of exponent. -/
def binary64 : Layout := ⟨52, 11⟩

/-- Single precision: 23 bits of fraction, 8 of exponent. -/
def binary32 : Layout := ⟨23, 8⟩

/-- The text of a double-precision number. -/
def ofFloat (x : Float) : String :=
  binary64.text x.toBits.toNat

end Waybill.Decimal
