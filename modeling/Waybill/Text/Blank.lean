/-
  White space of text: which characters are blank, and trimming.

  * `isBlank` is the Unicode property White_Space;
  * `dropBlanks`, `dropBlanksEnd` and `trimmed` cut blanks from the front, the
    back and both ends of a list of characters, `trim` from both ends of a string;
  * `isBlankText s`: nothing is left of `s` once trimmed.

  Statement: `toList_trim` (the characters of a trimmed string).
-/

namespace Waybill.Text

/-! ## Blank characters -/

/-- The characters with the Unicode property White_Space. -/
def isBlank (c : Char) : Bool :=
  let n := c.toNat
  (9 ≤ n && n ≤ 13) || n == 0x20 || n == 0x85 || n == 0xA0 || n == 0x1680 ||
    (0x2000 ≤ n && n ≤ 0x200A) || n == 0x2028 || n == 0x2029 || n == 0x202F ||
    n == 0x205F || n == 0x3000

/-! ## Trimming -/

/-- The characters from the first one on that is not blank. -/
def dropBlanks (cs : List Char) : List Char :=
  cs.dropWhile isBlank

/-- The characters up to the last one that is not blank. -/
def dropBlanksEnd (cs : List Char) : List Char :=
  (cs.reverse.dropWhile isBlank).reverse

/-- The characters without the blanks at either end. -/
def trimmed (cs : List Char) : List Char :=
  dropBlanksEnd (dropBlanks cs)

/-- The text without the blanks at either end. -/
def trim (s : String) : String :=
  String.ofList (trimmed s.toList)

@[simp] theorem toList_trim (s : String) : (trim s).toList = trimmed s.toList := by
  simp [trim]

/-- Only blanks, or no character at all. -/
def isBlankText (s : String) : Bool :=
  (trimmed s.toList).isEmpty

end Waybill.Text
