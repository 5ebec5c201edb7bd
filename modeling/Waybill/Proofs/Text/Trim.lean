/-
  What trimming leaves.

  Statements: `trimmed_trimmed` and `trim_trim` (a trimmed text has no blanks left to trim),
  `trimmed_eq_self` (nor has a text without blanks), `mem_trimmed` (what is not blank is left),
  `dropBlanks_append_cons` and `dropBlanksEnd_append_cons` (no blank is dropped past a character
  that is none).
-/
import Mathlib.Data.List.DropRight
import Waybill.Text.Blank

namespace Waybill.Text

theorem dropBlanks_of_prefix {cs ds : List Char} (h : cs <+: dropBlanks ds) :
    dropBlanks cs = cs := by
  obtain ⟨es, h⟩ := h
  cases cs with
  | nil => rfl
  | cons c cs =>
    have hd : dropBlanks (c :: cs ++ es) = c :: cs ++ es := by
      rw [h]; exact List.dropWhile_idempotent isBlank ds
    by_cases hc : isBlank c
    · -- a blank at the front would have been dropped from the longer text
      have hl := congrArg List.length hd
      simp only [dropBlanks, List.cons_append, List.dropWhile_cons, hc, ↓reduceIte,
        List.length_cons] at hl
      have := (List.dropWhile_suffix isBlank (l := cs ++ es)).length_le
      omega
    · simp [dropBlanks, hc]

theorem prefix_dropBlanksEnd (cs : List Char) : dropBlanksEnd cs <+: cs :=
  List.rdropWhile_prefix isBlank cs

@[simp] theorem trimmed_trimmed (cs : List Char) : trimmed (trimmed cs) = trimmed cs := by
  have hfront : dropBlanks (trimmed cs) = trimmed cs :=
    dropBlanks_of_prefix (prefix_dropBlanksEnd (dropBlanks cs))
  calc trimmed (trimmed cs)
      = dropBlanksEnd (trimmed cs) := by rw [trimmed, hfront]
    _ = trimmed cs := List.rdropWhile_idempotent isBlank (dropBlanks cs)

@[simp] theorem trim_trim (s : String) : trim (trim s) = trim s := by
  rw [trim, toList_trim, trimmed_trimmed]; rfl

theorem dropBlanks_eq_self {cs : List Char} (h : ∀ c ∈ cs, isBlank c = false) :
    dropBlanks cs = cs := by
  cases cs with
  | nil => rfl
  | cons c cs => exact List.dropWhile_cons_of_neg (by simp [h c List.mem_cons_self])

theorem trimmed_eq_self {cs : List Char} (h : ∀ c ∈ cs, isBlank c = false) : trimmed cs = cs := by
  have hreverse : dropBlanks cs.reverse = cs.reverse :=
    dropBlanks_eq_self fun c hc => h c (List.mem_reverse.1 hc)
  rw [trimmed, dropBlanks_eq_self h]
  exact (congrArg List.reverse hreverse).trans (List.reverse_reverse cs)

/-- Nothing is left of a blank text, and of no other. -/
theorem isEmpty_trim (s : String) : (trim s).isEmpty = isBlankText s := by
  rw [Bool.eq_iff_iff, String.isEmpty_iff, trim]
  simp [isBlankText]

theorem mem_dropBlanks {d : Char} (hd : isBlank d = false) {cs : List Char} (h : d ∈ cs) :
    d ∈ dropBlanks cs := by
  rw [← List.takeWhile_append_dropWhile (p := isBlank) (l := cs), List.mem_append] at h
  refine h.resolve_left fun hmem => ?_
  simp [List.mem_takeWhile_imp hmem] at hd

theorem mem_trimmed {d : Char} (hd : isBlank d = false) {cs : List Char} (h : d ∈ cs) :
    d ∈ trimmed cs := by
  rw [trimmed, dropBlanksEnd, List.mem_reverse]
  exact mem_dropBlanks hd (List.mem_reverse.2 (mem_dropBlanks hd h))

/-! ## Around a character that is not blank -/

theorem dropBlanks_append_cons {d : Char} (hd : isBlank d = false) (cs ds : List Char) :
    dropBlanks (cs ++ d :: ds) = dropBlanks cs ++ d :: ds := by
  induction cs with
  | nil => exact List.dropWhile_cons_of_neg (by simp [hd])
  | cons c cs ih =>
    by_cases hc : isBlank c
    · simpa [dropBlanks, hc] using ih
    · simp [dropBlanks, hc]

theorem dropBlanksEnd_append_cons {d : Char} (hd : isBlank d = false) (cs ds : List Char) :
    dropBlanksEnd (cs ++ d :: ds) = cs ++ d :: dropBlanksEnd ds := by
  have hreverse : (cs ++ d :: ds).reverse = ds.reverse ++ d :: cs.reverse := by simp
  have hdrop := dropBlanks_append_cons hd ds.reverse cs.reverse
  unfold dropBlanks at hdrop
  rw [dropBlanksEnd, hreverse, hdrop]
  simp [dropBlanksEnd]

end Waybill.Text
