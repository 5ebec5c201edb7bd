/-
  Cutting text at separators.

  * `splitOn sep cs` are the pieces of `cs` between the separators, empty ones
    included: one more piece than there are separators;
  * `cutAt? mark cs` are the parts before and after the first occurrence of `mark`;
  * `stripEnds c cs` cuts the characters equal to `c` from both ends;
  * `hasEnding e s` tells whether `s` ends in `e`.

  Statements: `splitOn_ne_nil` (there is a piece), `cutAt?_singleton` (the mark is the first one).
-/

namespace Waybill.Text

/-! ## Pieces between separators -/

/-- The pieces of the text between the separators; a text without one is a single piece. -/
def splitOn (sep : Char) : List Char → List (List Char)
  | [] => [[]]
  | c :: cs =>
    if c = sep then [] :: splitOn sep cs
    else match splitOn sep cs with
      | [] => [[c]]
      | piece :: pieces => (c :: piece) :: pieces

theorem splitOn_ne_nil (sep : Char) (cs : List Char) : splitOn sep cs ≠ [] := by
  cases cs with
  | nil => simp [splitOn]
  | cons c cs => unfold splitOn; split <;> (try split) <;> simp

/-! ## The first occurrence of a mark -/

/-- The parts before and after the first occurrence of the mark, if there is one. -/
def cutAt? (mark : List Char) : List Char → Option (List Char × List Char)
  | [] => if mark.isEmpty then some ([], []) else none
  | c :: cs =>
    if mark.isPrefixOf (c :: cs) then some ([], (c :: cs).drop mark.length)
    else (cutAt? mark cs).map fun parts => (c :: parts.1, parts.2)

theorem cutAt?_singleton {c : Char} {before : List Char} (h : c ∉ before) (after : List Char) :
    cutAt? [c] (before ++ c :: after) = some (before, after) := by
  induction before with
  | nil => simp [cutAt?]
  | cons d before ih =>
    rw [List.mem_cons, not_or] at h
    obtain ⟨hd, hbefore⟩ := h
    have hmark : [c].isPrefixOf (d :: (before ++ c :: after)) = false := by
      simp [List.isPrefixOf, hd]
    rw [List.cons_append, cutAt?, hmark, ih hbefore]
    rfl

/-! ## Ends -/

/-- The text without the characters equal to `c` at either end. -/
def stripEnds (c : Char) (cs : List Char) : List Char :=
  ((cs.dropWhile (· = c)).reverse.dropWhile (· = c)).reverse

/-- Whether the text ends in `e`. -/
def hasEnding (e s : String) : Bool :=
  e.toList.isSuffixOf s.toList

end Waybill.Text
