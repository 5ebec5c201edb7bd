/-
  Cells and rectangles of cells.

  * `Range.Apart`: two rectangles have no cell in common;
  * `Keeps`: a cell keeps a value of its own, since no rectangle has it as other than its anchor;
  * `Canonical`: every cell is sent to the one cell that keeps its value.

  Statements: `Cell.text_injective` (no two cells are written alike), `anchor_eq_redirected`
  (where the value of a cell is kept when rectangles are apart) and `canonical_of_apart`.
-/
import Mathlib
import Waybill.Sheet.Cell

namespace Waybill.Sheet

/-! ## Cells -/

theorem isAlpha_letter {n : Nat} (h : n < 26) : (letter n).isAlpha = true := by
  have : ∀ m : Fin 26, (letter m.val).isAlpha = true := by decide
  exact this ⟨n, h⟩

theorem isAlpha_of_mem_columnLetters {n : Nat} {c : Char} (h : c ∈ columnLetters n) :
    c.isAlpha = true := by
  fun_induction columnLetters n with
  | case1 => cases h
  | case2 n hn ih =>
    rcases List.mem_append.1 h with h | h
    · exact ih h
    · rw [List.mem_singleton.1 h]
      exact isAlpha_letter (Nat.mod_lt _ (by decide))

theorem toNat_of_isAlpha {c : Char} (h : c.isAlpha = true) :
    (65 ≤ c.toNat ∧ c.toNat ≤ 90) ∨ (97 ≤ c.toNat ∧ c.toNat ≤ 122) := by
  simp only [Char.isAlpha, Char.isUpper, Char.isLower, Bool.or_eq_true, Bool.and_eq_true,
    decide_eq_true_eq, UInt32.le_iff_toNat_le, ge_iff_le] at h
  exact h

theorem not_isAlpha_of_isDigit {c : Char} (h : c.isDigit = true) : c.isAlpha = false := by
  by_contra halpha
  have hletter := toNat_of_isAlpha (Bool.not_eq_false _ ▸ halpha)
  simp only [Char.isDigit, Bool.and_eq_true, decide_eq_true_eq, UInt32.le_iff_toNat_le,
    ge_iff_le] at h
  change 48 ≤ c.toNat ∧ c.toNat ≤ 57 at h
  omega

/-- The letters of a written cell are those of its column. -/
theorem takeWhile_text (c : Cell) :
    (columnLetters c.column ++ Nat.toDigits 10 c.row).takeWhile Char.isAlpha =
      columnLetters c.column := by
  rw [List.takeWhile_append_of_pos fun _ => isAlpha_of_mem_columnLetters]
  cases hdigits : Nat.toDigits 10 c.row with
  | nil => exact absurd hdigits Nat.toDigits_ne_nil
  | cons d ds =>
    have hd : d.isDigit = true :=
      Nat.isDigit_of_mem_toDigits (by decide) (by decide) (hdigits ▸ List.mem_cons_self)
    rw [List.takeWhile_cons_of_neg (by simp [not_isAlpha_of_isDigit hd]), List.append_nil]

/-- **No two cells are written alike.** -/
theorem Cell.text_injective : Function.Injective Cell.text := by
  intro c d h
  have hchars : columnLetters c.column ++ Nat.toDigits 10 c.row =
      columnLetters d.column ++ Nat.toDigits 10 d.row := String.ofList_injective h
  have hletters : columnLetters c.column = columnLetters d.column := by
    rw [← takeWhile_text c, ← takeWhile_text d, hchars]
  have hdigits : Nat.toDigits 10 c.row = Nat.toDigits 10 d.row := by
    rwa [hletters, List.append_cancel_left_eq] at hchars
  have hcolumn : c.column = d.column := by
    rw [← columnNumber_columnLetters c.column, hletters, columnNumber_columnLetters]
  have hrow : c.row = d.row := by
    rw [← Nat.ofDigitChars_ten_toDigits (n := c.row), hdigits, Nat.ofDigitChars_ten_toDigits]
  cases c
  cases d
  exact congr (congrArg Cell.mk hcolumn) hrow

/-! ## Ranges -/

namespace Range

/-- The rectangles have no cell in common. -/
def Apart (r r' : Range) : Prop :=
  ∀ c : Cell, ¬ (r.contains c = true ∧ r'.contains c = true)

instance : Std.Symm Apart where
  symm _ _ h c hc := h c hc.symm

/-- A rectangle with any cell has its anchor. -/
theorem contains_anchor {r : Range} {c : Cell} (h : r.contains c = true) :
    r.contains r.anchor = true := by
  obtain ⟨⟨⟨hleft, hright⟩, htop⟩, hbottom⟩ : ((r.first.column ≤ c.column ∧
      c.column ≤ r.last.column) ∧ r.first.row ≤ c.row) ∧ c.row ≤ r.last.row := by
    simpa [contains] using h
  simp [contains, anchor, Nat.le_trans hleft hright, Nat.le_trans htop hbottom]

end Range

/-- No rectangle has the cell that keeps the value of a cell, but the one it is the anchor of. -/
theorem anchor_eq_redirected {ranges : List Range} (h : ranges.Pairwise Range.Apart) (c : Cell) :
    ∀ r ∈ ranges, r.contains (redirected ranges c) = true → r.anchor = redirected ranges c := by
  intro r hr hcontains
  unfold redirected at hcontains ⊢
  cases hfind : ranges.find? fun r => r.contains c with
  | none =>
    rw [hfind] at hcontains
    exact absurd hcontains (List.find?_eq_none.1 hfind r hr)
  | some q =>
    rw [hfind] at hcontains
    have hfound : q.contains c = true := by simpa using List.find?_some hfind
    by_contra hne
    have hapart := h.forall (List.mem_of_find?_eq_some hfind) hr fun hqr => hne (hqr ▸ rfl)
    exact hapart _ ⟨Range.contains_anchor hfound, hcontains⟩

/-! ## Redirection -/

/-- The cell keeps a value of its own: no rectangle has it, but the one it is the anchor of. -/
def Keeps (ranges : List Range) (c : Cell) : Prop :=
  ∀ r ∈ ranges, r.contains c = true → r.anchor = c

/-- Redirection is canonical: it can be repeated, in any order of the rectangles, without going
    elsewhere, leaves the cells of no rectangle alone, sends all cells of a rectangle to its anchor,
    and ends in a cell that keeps a value of its own. -/
structure Canonical (ranges : List Range) : Prop where
  idempotent (c : Cell) : redirected ranges (redirected ranges c) = redirected ranges c
  order {ranges' : List Range} (h : ranges'.Perm ranges) (c : Cell) :
    redirected ranges' c = redirected ranges c
  outside {c : Cell} (h : ∀ r ∈ ranges, r.contains c = false) : redirected ranges c = c
  inside {r : Range} (hr : r ∈ ranges) {c : Cell} (h : r.contains c = true) :
    redirected ranges c = r.anchor
  keeps (c : Cell) : Keeps ranges (redirected ranges c)

theorem redirected_outside {ranges : List Range} {c : Cell}
    (h : ∀ r ∈ ranges, r.contains c = false) : redirected ranges c = c := by
  unfold redirected
  rw [List.find?_eq_none.2 fun r hr => by simp [h r hr]]

/-- A rectangle that has the cell is the one that is found, since no other one has it. -/
theorem redirected_inside {ranges : List Range} (h : ranges.Pairwise Range.Apart) {r : Range}
    (hr : r ∈ ranges) {c : Cell} (hc : r.contains c = true) : redirected ranges c = r.anchor := by
  unfold redirected
  cases hfind : ranges.find? fun r => r.contains c with
  | none => exact absurd hc (List.find?_eq_none.1 hfind r hr)
  | some q =>
    have hq : q.contains c = true := by simpa using List.find?_some hfind
    by_contra hne
    exact h.forall (List.mem_of_find?_eq_some hfind) hr (fun hqr => hne (hqr ▸ rfl)) c ⟨hq, hc⟩

/-- A cell that keeps a value of its own stays where it is. -/
theorem redirected_eq_self {ranges : List Range} {c : Cell} (h : Keeps ranges c) :
    redirected ranges c = c := by
  unfold redirected
  cases hfind : ranges.find? fun r => r.contains c with
  | none => rfl
  | some q => exact h q (List.mem_of_find?_eq_some hfind) (by simpa using List.find?_some hfind)

/-- **Redirection by rectangles that are apart is canonical.** -/
theorem canonical_of_apart {ranges : List Range} (h : ranges.Pairwise Range.Apart) :
    Canonical ranges where
  idempotent c := redirected_eq_self (anchor_eq_redirected h c)
  order {ranges'} hperm c := by
    have h' : ranges'.Pairwise Range.Apart :=
      (hperm.pairwise_iff fun hab => Std.Symm.symm _ _ hab).2 h
    by_cases hin : ∃ r ∈ ranges, r.contains c = true
    · obtain ⟨r, hr, hc⟩ := hin
      rw [redirected_inside h' (hperm.mem_iff.2 hr) hc, redirected_inside h hr hc]
    · have hout : ∀ r ∈ ranges, r.contains c = false := fun r hr =>
        Bool.eq_false_iff.2 fun hc => hin ⟨r, hr, hc⟩
      rw [redirected_outside hout, redirected_outside fun r hr => hout r (hperm.mem_iff.1 hr)]
  outside := redirected_outside
  inside hr _ hc := redirected_inside h hr hc
  keeps := anchor_eq_redirected h

end Waybill.Sheet
