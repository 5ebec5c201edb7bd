/-
  Cells of a sheet and rectangles of cells.

  A cell has a column and a row, both counted from one; a column is written in letters, where
  `A` to `Z` stand for 1 to 26 and there is no letter for zero.

  * `columnLetters` and `columnNumber` write and read a column;
  * `Cell.text` and `Cell.ofText?` write and read a cell, the latter inside the grid only and with
    the marks of absolute references;
  * `Range` is a rectangle given by two corners, `Range.anchor` its top left cell;
  * `redirected` sends a cell of a merged range to the anchor.

  Statement: `columnNumber_columnLetters` (reading a written column).
-/
import Waybill.Calendar.Reading
import Waybill.Text.Split

namespace Waybill.Sheet

open Waybill.Text

/-! ## Columns -/

/-- The letter of a number below 26. -/
def letter (n : Nat) : Char :=
  Char.ofNat ('A'.toNat + n)

/-- A column in letters; nothing for zero. -/
def columnLetters (n : Nat) : List Char :=
  if n = 0 then [] else columnLetters ((n - 1) / 26) ++ [letter ((n - 1) % 26)]
termination_by n
decreasing_by omega

/-- The place of a letter, from one on, in either case. -/
def letterNumber (c : Char) : Nat :=
  c.toUpper.toNat - 'A'.toNat + 1

/-- The column that letters spell. -/
def columnNumber (cs : List Char) : Nat :=
  cs.foldl (fun n c => n * 26 + letterNumber c) 0

theorem letterNumber_letter {n : Nat} (h : n < 26) : letterNumber (letter n) = n + 1 := by
  have : ∀ m : Fin 26, letterNumber (letter m.val) = m.val + 1 := by decide
  exact this ⟨n, h⟩

theorem columnNumber_columnLetters (n : Nat) : columnNumber (columnLetters n) = n := by
  fun_induction columnLetters n with
  | case1 => rfl
  | case2 n h ih =>
    unfold columnNumber at ih ⊢
    rw [List.foldl_append, ih]
    simp only [List.foldl_cons, List.foldl_nil]
    rw [letterNumber_letter (Nat.mod_lt _ (by decide))]
    omega

/-! ## Cells -/

/-- A cell by its column and row. -/
structure Cell where
  column : Nat
  row : Nat
  deriving DecidableEq, Inhabited

/-- The last column, `XFD`. -/
def maxColumn : Nat := 16384

/-- The last row. -/
def maxRow : Nat := 1048576

namespace Cell

/-- The cell in letters and digits. -/
def text (c : Cell) : String :=
  String.ofList (columnLetters c.column ++ Nat.toDigits 10 c.row)

/-- The cell a number of rows further down, if there is such a row. -/
def down (c : Cell) (offset : Nat) : Option Cell :=
  if c.row + offset ≤ maxRow then some { c with row := c.row + offset } else none

/-- The text without the mark of an absolute reference at its front. -/
def dropMark : List Char → List Char
  | '$' :: cs => cs
  | cs => cs

/-- A row number: one to seven digits, the first of them not zero. -/
def isRowText (cs : List Char) : Bool :=
  match cs with
  | [] => false
  | d :: ds => d ≠ '0' && (d :: ds).all Char.isDigit && ds.length < 7

/-- The cell that letters and digits spell. -/
def ofChars? (cs : List Char) : Option Cell :=
  let letters := (dropMark cs).takeWhile Char.isAlpha
  let digits := dropMark ((dropMark cs).dropWhile Char.isAlpha)
  if letters.isEmpty || 3 < letters.length || !isRowText digits then none
  else
    let cell : Cell := ⟨columnNumber letters, Calendar.ofDigits digits⟩
    if cell.column ≤ maxColumn ∧ cell.row ≤ maxRow then some cell else none

/-- The cell that a text spells, blanks at its ends aside. -/
def ofText? (s : String) : Option Cell :=
  ofChars? (trimmed s.toList)

end Cell

/-! ## Ranges -/

/-- The cells from one corner to the opposite one. -/
structure Range where
  first : Cell
  last : Cell
  deriving DecidableEq, Inhabited

namespace Range

/-- The rectangle with two opposite corners. -/
def ofCorners (a b : Cell) : Range where
  first := ⟨min a.column b.column, min a.row b.row⟩
  last := ⟨max a.column b.column, max a.row b.row⟩

/-- The top left cell. -/
def anchor (r : Range) : Cell := r.first

/-- Whether the rectangle has the cell. -/
def contains (r : Range) (c : Cell) : Bool :=
  r.first.column ≤ c.column && c.column ≤ r.last.column &&
    r.first.row ≤ c.row && c.row ≤ r.last.row

/-- The two corners, joined by a colon. -/
def text (r : Range) : String :=
  r.first.text ++ ":" ++ r.last.text

end Range

/-- The cell that holds the value of a cell: the anchor of the first range that has it, or else
    the cell itself. -/
def redirected (ranges : List Range) (c : Cell) : Cell :=
  match ranges.find? fun r => r.contains c with
  | some r => r.anchor
  | none => c

end Waybill.Sheet
