/-
  References to cells and ranges: what is read, and that it is what is written.

  A column has no letter for zero, so every number is spelled by one word only; a row has no zero in
  front.  So a cell is written in one way, whatever refers to it.

  * `spelled` is the number that capitals spell, counted in 26s from `A` as one;
  * `Reference` is the form of a reference to a cell, `Cell.Denotes` also says which cell it is;
  * `Cell.Inside` are the cells of the grid;
  * `Range.opposite` are the pairs of opposite corners of a rectangle.

  Statements: `columnLetters_spelled` (only one word spells a number), `Cell.ofText?_eq_some_iff`
  (what is read), `Cell.read_text` (a written cell is read back), `Range.read_corners` (what is read
  as a range) and `references_are_read_back`.
-/
import Waybill.Proofs.Calendar.Reading
import Waybill.Proofs.Sheet.Cell
import Waybill.Proofs.Text.Trim
import Waybill.Sheet.Workbook

namespace Waybill.Sheet

open Waybill.Calendar Waybill.Text

/-! ## Columns -/

/-- Nothing but letters from `A` to `Z`. -/
def Capitals (ls : List Char) : Prop :=
  ∀ c ∈ ls, 'A' ≤ c ∧ c ≤ 'Z'

/-- The number that letters spell: `A` is one, `Z` is 26, each place counts 26 times the next. -/
def spelled (ls : List Char) : Nat :=
  ls.foldl (fun n c => n * 26 + (c.toNat - 64)) 0

theorem spelled_concat (ls : List Char) (c : Char) :
    spelled (ls ++ [c]) = spelled ls * 26 + (c.toNat - 64) := by
  simp [spelled]

theorem isCapital_iff {c : Char} : 'A' ≤ c ∧ c ≤ 'Z' ↔ 65 ≤ c.toNat ∧ c.toNat ≤ 90 := by
  simp only [Char.le_def, UInt32.le_iff_toNat_le]
  rfl

theorem toNat_letter {n : Nat} (h : n < 26) : (letter n).toNat = 65 + n := by
  have hall : ∀ m : Fin 26, (letter m.val).toNat = 65 + m.val := by decide
  exact hall ⟨n, h⟩

theorem letter_eq {c : Char} {n : Nat} (h : n < 26) (hc : c.toNat = 65 + n) : letter n = c :=
  Char.toNat_inj.1 ((toNat_letter h).trans hc.symm)

/-- Only one word of capitals spells a number. -/
theorem columnLetters_spelled {ls : List Char} (h : Capitals ls) :
    columnLetters (spelled ls) = ls := by
  induction ls using List.reverseRecOn with
  | nil => rw [columnLetters]; rfl
  | append_singleton ls c ih =>
    obtain ⟨hlow, hhigh⟩ := isCapital_iff.1 (h c (by simp))
    have hls := ih fun d hd => h d (List.mem_append_left _ hd)
    rw [spelled_concat, columnLetters, if_neg (by omega)]
    -- the last letter counts one at least and 26 at most, so nothing is carried over
    rw [show (spelled ls * 26 + (c.toNat - 64) - 1) / 26 = spelled ls by omega, hls,
      letter_eq (c := c) (Nat.mod_lt _ (by decide)) (by omega)]

theorem capitals_columnLetters (n : Nat) : Capitals (columnLetters n) := by
  intro c h
  fun_induction columnLetters n with
  | case1 => cases h
  | case2 n hn ih =>
    rcases List.mem_append.1 h with h | h
    · exact ih h
    · have hlt : (n - 1) % 26 < 26 := Nat.mod_lt _ (by decide)
      rw [List.mem_singleton.1 h, isCapital_iff, toNat_letter hlt]
      omega

theorem toUpper_of_isAlpha {c : Char} (h : c.isAlpha = true) :
    'A' ≤ c.toUpper ∧ c.toUpper ≤ 'Z' := by
  have hall : ∀ m : Fin 128, (Char.ofNat m.val).isAlpha = true →
      65 ≤ (Char.ofNat m.val).toUpper.toNat ∧ (Char.ofNat m.val).toUpper.toNat ≤ 90 := by
    decide
  have hlt : c.toNat < 128 := by
    have := toNat_of_isAlpha h
    omega
  have hc := hall ⟨c.toNat, hlt⟩
  rw [Char.ofNat_toNat] at hc
  exact isCapital_iff.2 (hc h)

theorem toUpper_eq_self {c : Char} (h : 'A' ≤ c ∧ c ≤ 'Z') : c.toUpper = c := by
  rw [isCapital_iff] at h
  refine dif_neg fun hlower => ?_
  simp only [UInt32.le_iff_toNat_le] at hlower
  change 97 ≤ c.toNat ∧ c.toNat ≤ 122 at hlower
  omega

theorem capitals_map_toUpper {ls : List Char} (h : ∀ c ∈ ls, c.isAlpha = true) :
    Capitals (ls.map Char.toUpper) := by
  intro c hc
  obtain ⟨d, hd, rfl⟩ := List.mem_map.1 hc
  exact toUpper_of_isAlpha (h d hd)

/-- A column is what its letters spell, in either case. -/
theorem columnNumber_eq_spelled {ls : List Char} (h : ∀ c ∈ ls, c.isAlpha = true) :
    columnNumber ls = spelled (ls.map Char.toUpper) := by
  unfold columnNumber spelled
  rw [List.foldl_map]
  refine List.foldl_ext _ _ _ fun n c hc => ?_
  have hcapital := isCapital_iff.1 (toUpper_of_isAlpha (h c hc))
  change n * 26 + (c.toUpper.toNat - 65 + 1) = n * 26 + (c.toUpper.toNat - 64)
  omega

theorem map_toUpper_of_capitals {ls : List Char} (h : Capitals ls) : ls.map Char.toUpper = ls :=
  (List.map_congr_left fun c hc => toUpper_eq_self (h c hc)).trans (List.map_id ls)

theorem spelled_columnLetters (n : Nat) : spelled (columnLetters n) = n := by
  fun_induction columnLetters n with
  | case1 => rfl
  | case2 n hn ih =>
    rw [spelled_concat, ih, toNat_letter (Nat.mod_lt _ (by decide))]
    omega

theorem spelled_eq_iff {ls : List Char} (h : Capitals ls) (n : Nat) :
    spelled ls = n ↔ ls = columnLetters n := by
  constructor
  · rintro rfl
    exact (columnLetters_spelled h).symm
  · rintro rfl
    exact spelled_columnLetters n

theorem length_columnLetters_succ {n : Nat} (h : n ≠ 0) :
    (columnLetters n).length = (columnLetters ((n - 1) / 26)).length + 1 := by
  rw [columnLetters, if_neg h, List.length_append, List.length_singleton]

/-- One more letter spells 26 times as many numbers. -/
theorem length_columnLetters_le {bound length : Nat}
    (h : ∀ m ≤ bound, (columnLetters m).length ≤ length) :
    ∀ n ≤ 26 * bound + 26, (columnLetters n).length ≤ length + 1 := by
  intro n hn
  by_cases h0 : n = 0
  · rw [h0, columnLetters]
    exact Nat.zero_le _
  · rw [length_columnLetters_succ h0]
    exact Nat.succ_le_succ (h _ (by omega))

theorem length_columnLetters_le_three {n : Nat} (h : n ≤ maxColumn) :
    (columnLetters n).length ≤ 3 := by
  have hzero : ∀ m ≤ 0, (columnLetters m).length ≤ 0 := by
    intro m hm
    rw [Nat.le_zero.1 hm, columnLetters]
    exact Nat.le_refl 0
  have hthree := length_columnLetters_le (length_columnLetters_le (length_columnLetters_le hzero))
  exact hthree n (h.trans (by decide))

/-! ## Rows -/

/-- Digits without a zero in front are those of their number, which is not zero. -/
theorem toDigits_ofDigits {ds : List Char} (h : Digits ds) (hne : ds ≠ [])
    (hzero : ds.head? ≠ some '0') : Nat.toDigits 10 (ofDigits ds) = ds ∧ 0 < ofDigits ds := by
  induction ds using List.reverseRecOn with
  | nil => exact (hne rfl).elim
  | append_singleton ds c ih =>
    obtain ⟨hc, hten⟩ := digitChar_toNat (h c (by simp))
    rw [ofDigits_concat]
    generalize hm : c.toNat - '0'.toNat = m at hc hten
    -- a number of one digit is no zero, a longer one has digits before its last
    cases ds with
    | nil =>
      have hpos : m ≠ 0 := by
        rintro rfl
        exact hzero (by simp [← hc, Nat.digitChar])
      refine ⟨?_, by simp only [ofDigits, List.foldl_nil]; omega⟩
      simp [ofDigits, Nat.toDigits_of_lt_base hten, hc]
    | cons d ds =>
      obtain ⟨hdigits, hpos⟩ := ih (fun e he => h e (List.mem_append_left _ he)) (by simp)
        (by simpa using hzero)
      refine ⟨?_, by omega⟩
      have happend := Nat.toDigits_append_toDigits (by decide : 1 < 10) hpos hten
      rw [hdigits, Nat.toDigits_of_lt_base hten, hc] at happend
      rw [Nat.mul_comm, ← happend]

theorem head?_toDigits {n : Nat} (h : 0 < n) : (Nat.toDigits 10 n).head? ≠ some '0' := by
  induction n using Nat.strongRecOn with
  | ind n ih =>
    rcases Nat.lt_or_ge n 10 with hlt | hge
    · have hall : ∀ m : Fin 10, 0 < m.val → Nat.digitChar m.val ≠ '0' := by decide
      simpa [Nat.toDigits_of_lt_base hlt] using hall ⟨n, hlt⟩ h
    · have hhead := ih (n / 10) (Nat.div_lt_self h (by decide)) (Nat.div_pos hge (by decide))
      rw [Nat.toDigits_of_base_le (by decide) hge]
      cases hdigits : Nat.toDigits 10 (n / 10) with
      | nil => exact absurd hdigits Nat.toDigits_ne_nil
      | cons d ds => rwa [hdigits] at hhead

/-! ## References to cells -/

/-- Nothing, or the mark of an absolute reference. -/
def Mark (cs : List Char) : Prop :=
  cs = [] ∨ cs = ['$']

/-- A reference to a cell: one to three letters and one to seven digits without a zero in front,
    with or without a mark before either. -/
structure Reference (cs letters digits : List Char) : Prop where
  form : ∃ mark mark', Mark mark ∧ Mark mark' ∧ cs = mark ++ (letters ++ (mark' ++ digits))
  isAlpha : ∀ c ∈ letters, c.isAlpha = true
  letters_ne_nil : letters ≠ []
  length_letters : letters.length ≤ 3
  isDigit : Digits digits
  digits_ne_nil : digits ≠ []
  length_digits : digits.length ≤ 7
  head_digits : digits.head? ≠ some '0'

namespace Cell

/-- The cells of the grid. -/
def Inside (c : Cell) : Prop :=
  (1 ≤ c.column ∧ c.column ≤ maxColumn) ∧ 1 ≤ c.row ∧ c.row ≤ maxRow

/-- The cell that the letters and the digits of a reference spell. -/
def spelledBy (letters digits : List Char) : Cell :=
  ⟨spelled (letters.map Char.toUpper), Nat.ofDigitChars 10 digits 0⟩

/-- The letters in capitals and the digits, without marks. -/
def plainly (letters digits : List Char) : String :=
  String.ofList (letters.map Char.toUpper ++ digits)

/-- The text is a reference to a cell of the grid, blanks at its ends aside. -/
structure Denotes (s : String) (letters digits : List Char) (c : Cell) : Prop where
  reference : Reference (trimmed s.toList) letters digits
  spelled : c = spelledBy letters digits
  column : c.column ≤ maxColumn
  row : c.row ≤ maxRow

theorem exists_mark (cs : List Char) : ∃ mark, Mark mark ∧ cs = mark ++ dropMark cs := by
  unfold dropMark
  split
  · exact ⟨['$'], .inr rfl, rfl⟩
  · exact ⟨[], .inl rfl, rfl⟩

theorem dropMark_append {mark cs : List Char} (h : Mark mark) (hcs : cs.head? ≠ some '$') :
    dropMark (mark ++ cs) = cs := by
  rcases h with rfl | rfl
  · rw [List.nil_append]
    unfold dropMark
    split
    · exact (hcs rfl).elim
    · rfl
  · rfl

theorem isRowText_iff {cs : List Char} :
    isRowText cs = true ↔ Digits cs ∧ cs ≠ [] ∧ cs.length ≤ 7 ∧ cs.head? ≠ some '0' := by
  cases cs with
  | nil => simp [isRowText]
  | cons d ds =>
    simp only [isRowText, Bool.and_eq_true, decide_eq_true_eq, List.all_eq_true,
      List.length_cons, List.head?_cons, ne_eq, reduceCtorEq, not_false_eq_true, true_and,
      Option.some.injEq, Digits, Nat.lt_iff_add_one_le]
    tauto

/-- The letters end where no letter comes next. -/
theorem span_letters {letters rest : List Char} (h : ∀ c ∈ letters, c.isAlpha = true)
    (hrest : ∀ c ∈ rest.head?, c.isAlpha = false) :
    (letters ++ rest).takeWhile Char.isAlpha = letters ∧
      (letters ++ rest).dropWhile Char.isAlpha = rest := by
  rw [List.takeWhile_append_of_pos h, List.dropWhile_append_of_pos h]
  cases rest with
  | nil => simp
  | cons c rest => simp [hrest c rfl]

theorem head?_ne_mark {p : Char → Bool} (hp : p '$' = false) {cs : List Char}
    (h : ∀ c ∈ cs, p c = true) (hne : cs ≠ []) (rest : List Char) :
    (cs ++ rest).head? ≠ some '$' := by
  cases cs with
  | nil => exact (hne rfl).elim
  | cons c cs =>
    rintro hc
    have := h c List.mem_cons_self
    rw [Option.some.inj hc, hp] at this
    cases this

/-- The letters and the digits of a reference are those that are read. -/
theorem reference_iff {cs letters digits : List Char} :
    Reference cs letters digits ↔ letters = (dropMark cs).takeWhile Char.isAlpha ∧
      digits = dropMark ((dropMark cs).dropWhile Char.isAlpha) ∧ letters ≠ [] ∧
      letters.length ≤ 3 ∧ isRowText digits = true := by
  constructor
  · rintro ⟨⟨mark, mark', hmark, hmark', rfl⟩, halpha, hne, hlength, hdigits, hdigitsNe,
      hdigitsLength, hhead⟩
    -- what follows the letters is a mark or a digit, and neither is a letter
    have hrest : ∀ c ∈ (mark' ++ digits).head?, c.isAlpha = false := by
      rcases hmark' with rfl | rfl
      · intro c hc
        exact not_isAlpha_of_isDigit (hdigits c (List.mem_of_head? hc))
      · rintro c ⟨⟩
        decide
    obtain ⟨htake, hdrop⟩ := span_letters halpha hrest
    have hletters : dropMark (mark ++ (letters ++ (mark' ++ digits))) =
        letters ++ (mark' ++ digits) := dropMark_append hmark (head?_ne_mark rfl halpha hne _)
    have hrow : dropMark (mark' ++ digits) = digits := by
      refine dropMark_append hmark' ?_
      simpa using head?_ne_mark rfl hdigits hdigitsNe []
    rw [hletters, htake, hdrop, hrow]
    exact ⟨rfl, rfl, hne, hlength, isRowText_iff.2 ⟨hdigits, hdigitsNe, hdigitsLength, hhead⟩⟩
  · rintro ⟨rfl, rfl, hne, hlength, hrow⟩
    obtain ⟨hdigits, hdigitsNe, hdigitsLength, hhead⟩ := isRowText_iff.1 hrow
    obtain ⟨mark, hmark, hcs⟩ := exists_mark cs
    obtain ⟨mark', hmark', hrest⟩ := exists_mark ((dropMark cs).dropWhile Char.isAlpha)
    refine ⟨⟨mark, mark', hmark, hmark', ?_⟩, fun c => List.mem_takeWhile_imp, hne, hlength,
      hdigits, hdigitsNe, hdigitsLength, hhead⟩
    rw [← hrest, List.takeWhile_append_dropWhile, ← hcs]

theorem ofChars?_eq_some_iff {cs : List Char} {c : Cell} :
    ofChars? cs = some c ↔ ∃ letters digits, Reference cs letters digits ∧
      c = spelledBy letters digits ∧ c.column ≤ maxColumn ∧ c.row ≤ maxRow := by
  have hread : ∀ letters digits, Reference cs letters digits →
      (⟨columnNumber letters, ofDigits digits⟩ : Cell) = spelledBy letters digits := by
    intro letters digits h
    rw [columnNumber_eq_spelled h.isAlpha, ofDigits_eq_ofDigitChars]
    rfl
  constructor
  · intro h
    unfold ofChars? at h
    dsimp only at h
    split at h
    · cases h
    · next hparts =>
      simp only [Bool.or_eq_true, not_or, Bool.not_eq_true, Bool.not_eq_false,
        Bool.not_eq_true', List.isEmpty_eq_false_iff, decide_eq_false_iff_not, not_lt] at hparts
      obtain ⟨⟨hne, hlength⟩, hrow⟩ := hparts
      have href := reference_iff.2 ⟨rfl, rfl, hne, hlength, hrow⟩
      split at h
      · next hinside =>
        cases h
        exact ⟨_, _, href, hread _ _ href, hinside⟩
      · cases h
  · rintro ⟨letters, digits, href, hc, hinside⟩
    obtain ⟨hletters, hdigits, hne, hlength, hrow⟩ := reference_iff.1 href
    have hcell := (hread _ _ href).trans hc.symm
    unfold ofChars?
    dsimp only
    rw [← hletters, ← hdigits, if_neg (by simp [hne, hlength, hrow])]
    subst hcell
    exact if_pos hinside

/-- **What is read as a cell**: the references to the grid. -/
theorem ofText?_eq_some_iff {s : String} {c : Cell} :
    ofText? s = some c ↔ ∃ letters digits, Denotes s letters digits c := by
  rw [ofText?, ofChars?_eq_some_iff]
  constructor
  · rintro ⟨letters, digits, href, hc, hcolumn, hrow⟩
    exact ⟨letters, digits, href, hc, hcolumn, hrow⟩
  · rintro ⟨letters, digits, href, hc, hcolumn, hrow⟩
    exact ⟨letters, digits, href, hc, hcolumn, hrow⟩

theorem read_eq_ok_iff {s : String} {c : Cell} : read s = .ok c ↔ ofText? s = some c := by
  unfold read
  cases ofText? s <;> simp

section Denotes

variable {s : String} {letters digits : List Char} {c : Cell}

/-- A cell is written in the capitals and the digits that spell it. -/
theorem Denotes.text_eq (h : Denotes s letters digits c) : c.text = plainly letters digits := by
  obtain ⟨href, rfl, -, -⟩ := h
  unfold text spelledBy
  rw [columnLetters_spelled (capitals_map_toUpper href.isAlpha), ← ofDigits_eq_ofDigitChars,
    (toDigits_ofDigits href.isDigit href.digits_ne_nil href.head_digits).1]
  rfl

theorem Denotes.inside (h : Denotes s letters digits c) : c.Inside := by
  obtain ⟨href, hc, hcolumn, hrow⟩ := h
  have hone : c.column ≠ 0 := by
    intro hzero
    rw [hc, spelledBy, spelled_eq_iff (capitals_map_toUpper href.isAlpha), columnLetters] at hzero
    exact href.letters_ne_nil (List.map_eq_nil_iff.1 hzero)
  refine ⟨⟨Nat.one_le_iff_ne_zero.2 hone, hcolumn⟩, ?_, hrow⟩
  rw [hc, spelledBy, ← ofDigits_eq_ofDigitChars]
  exact (toDigits_ofDigits href.isDigit href.digits_ne_nil href.head_digits).2

/-- No reference has a colon in it. -/
theorem Denotes.not_mem_colon (h : Denotes s letters digits c) : ':' ∉ s.toList := by
  intro hmem
  obtain ⟨mark, mark', hmark, hmark', hform⟩ := h.reference.form
  have hcolon : ∀ {m : List Char}, Mark m → ':' ∉ m := by
    rintro m (rfl | rfl) <;> decide
  have htrimmed : ':' ∈ trimmed s.toList := mem_trimmed (by decide) hmem
  rw [hform] at htrimmed
  simp only [List.mem_append] at htrimmed
  rcases htrimmed with hm | hm | hm | hm
  · exact hcolon hmark hm
  · exact absurd (h.reference.isAlpha _ hm) (by decide)
  · exact hcolon hmark' hm
  · exact absurd (h.reference.isDigit _ hm) (by decide)

end Denotes

theorem reference_text {c : Cell} (h : Inside c) :
    Reference (columnLetters c.column ++ Nat.toDigits 10 c.row) (columnLetters c.column)
      (Nat.toDigits 10 c.row) where
  form := ⟨[], [], .inl rfl, .inl rfl, rfl⟩
  isAlpha _ := isAlpha_of_mem_columnLetters
  letters_ne_nil hnil := by
    have hlength := length_columnLetters_succ (Nat.one_le_iff_ne_zero.1 h.1.1)
    rw [hnil] at hlength
    cases hlength
  length_letters := length_columnLetters_le_three h.1.2
  isDigit _ := Nat.isDigit_of_mem_toDigits (by decide) (by decide)
  digits_ne_nil := Nat.toDigits_ne_nil
  length_digits := by
    rw [Nat.length_toDigits_le_iff (by decide) (by decide)]
    exact h.2.2.trans_lt (by decide)
  head_digits := head?_toDigits h.2.1

theorem not_isBlank_of_isAlpha {c : Char} (h : c.isAlpha = true) : isBlank c = false := by
  have hletter := toNat_of_isAlpha h
  simp only [isBlank, Bool.or_eq_false_iff, Bool.and_eq_false_iff, decide_eq_false_iff_not,
    beq_eq_false_iff_ne, ne_eq]
  omega

/-- A cell of the grid denotes itself. -/
theorem denotes_text {c : Cell} (h : Inside c) :
    Denotes c.text (columnLetters c.column) (Nat.toDigits 10 c.row) c where
  reference := by
    have href := reference_text h
    rw [text, String.toList_ofList, trimmed_eq_self]
    · exact href
    · intro d hd
      rcases List.mem_append.1 hd with hd | hd
      · exact not_isBlank_of_isAlpha (href.isAlpha d hd)
      · exact not_isBlank_of_isDigit (href.isDigit d hd)
  spelled := by
    rw [spelledBy, map_toUpper_of_capitals (capitals_columnLetters _), spelled_columnLetters,
      Nat.ofDigitChars_ten_toDigits]
  column := h.1.2
  row := h.2.2

/-- **A cell of the grid is read back as it is written.** -/
theorem read_text {c : Cell} (h : Inside c) : read c.text = .ok c :=
  read_eq_ok_iff.2 (ofText?_eq_some_iff.2 ⟨_, _, denotes_text h⟩)

end Cell

/-! ## References to ranges -/

namespace Range

/-- The opposite corners of the rectangle with the corners `a` and `b`. -/
def opposite (a b : Cell) : List (Cell × Cell) :=
  [(a, b), (b, a), (⟨a.column, b.row⟩, ⟨b.column, a.row⟩), (⟨b.column, a.row⟩, ⟨a.column, b.row⟩)]

theorem ofCorners_of_opposite {a b : Cell} {p : Cell × Cell} (h : p ∈ opposite a b) :
    ofCorners p.1 p.2 = ofCorners a b := by
  simp only [opposite, List.mem_cons, List.not_mem_nil, or_false] at h
  rcases h with rfl | rfl | rfl | rfl <;> simp [ofCorners, min_comm, max_comm]

theorem inside_of_opposite {a b : Cell} {p : Cell × Cell} (ha : a.Inside) (hb : b.Inside)
    (h : p ∈ opposite a b) : p.1.Inside ∧ p.2.Inside := by
  simp only [opposite, List.mem_cons, List.not_mem_nil, or_false] at h
  rcases h with rfl | rfl | rfl | rfl
  · exact ⟨ha, hb⟩
  · exact ⟨hb, ha⟩
  · exact ⟨⟨ha.1, hb.2⟩, hb.1, ha.2⟩
  · exact ⟨⟨hb.1, ha.2⟩, ha.1, hb.2⟩

/-- **A rectangle is read from two of its corners**, whatever refers to them. -/
theorem read_corners {s t : String} {a b : Cell} (hs : Cell.read s = .ok a)
    (ht : Cell.read t = .ok b) : Range.read (s ++ ":" ++ t) = .ok (ofCorners a b) := by
  obtain ⟨letters, digits, hdenotes⟩ := Cell.ofText?_eq_some_iff.1 (Cell.read_eq_ok_iff.1 hs)
  have hcut : cutAt? [':'] (s ++ ":" ++ t).toList = some (s.toList, t.toList) := by
    rw [String.toList_append, String.toList_append, List.append_assoc]
    exact cutAt?_singleton hdenotes.not_mem_colon t.toList
  unfold Range.read
  simp only [hcut, String.ofList_toList, hs, ht]
  rfl

theorem ofCorners_ofCorners (a b : Cell) :
    ofCorners (ofCorners a b).first (ofCorners a b).last = ofCorners a b := by
  simp [ofCorners]

/-- A rectangle of the grid is read back as it is written. -/
theorem read_text {a b : Cell} (ha : a.Inside) (hb : b.Inside) :
    Range.read (ofCorners a b).text = .ok (ofCorners a b) := by
  have hinside : (ofCorners a b).first.Inside ∧ (ofCorners a b).last.Inside := by
    unfold Cell.Inside at *
    simp only [ofCorners]
    omega
  have hread := read_corners (Cell.read_text hinside.1) (Cell.read_text hinside.2)
  rwa [ofCorners_ofCorners] at hread

/-- The cells of a rectangle are those between its corners. -/
theorem contains_ofCorners {a b c : Cell} : (ofCorners a b).contains c = true ↔
    c.column ∈ Set.uIcc a.column b.column ∧ c.row ∈ Set.uIcc a.row b.row := by
  simp [ofCorners, contains, Set.uIcc, and_assoc]

end Range

/-! ## References are read back -/

/-- **References are read back as they are written**: the references to the grid are read and no
    other text is; a cell is written as what refers to it, in capitals and without marks and blanks,
    and two references are to one cell when these texts are one.  A column has one word, and what is
    written for a cell or for a rectangle of the grid is read as it, as are any two opposite
    corners of the rectangle, which has the cells between them. -/
theorem references_are_read_back :
    (∀ (s : String) (c : Cell), Cell.read s = .ok c ↔
      ∃ letters digits, Cell.Denotes s letters digits c) ∧
    (∀ (s : String) (c : Cell) (letters digits : List Char), Cell.Denotes s letters digits c →
      c.text = Cell.plainly letters digits ∧ Cell.read (Cell.plainly letters digits) = .ok c) ∧
    (∀ (s s' : String) (c c' : Cell) (letters letters' digits digits' : List Char),
      Cell.Denotes s letters digits c → Cell.Denotes s' letters' digits' c' →
        (c = c' ↔ Cell.plainly letters digits = Cell.plainly letters' digits')) ∧
    (∀ (n : Nat) (ls : List Char), Capitals ls ∧ spelled ls = n ↔ ls = columnLetters n) ∧
    (∀ c : Cell, c.Inside → Cell.read c.text = .ok c) ∧
    ∀ a b : Cell, a.Inside → b.Inside →
      (∀ p ∈ Range.opposite a b,
        Range.read (p.1.text ++ ":" ++ p.2.text) = .ok (Range.ofCorners a b)) ∧
      Range.read (Range.ofCorners a b).text = .ok (Range.ofCorners a b) ∧
      ∀ c : Cell, (Range.ofCorners a b).contains c = true ↔
        c.column ∈ Set.uIcc a.column b.column ∧ c.row ∈ Set.uIcc a.row b.row := by
  refine ⟨fun s c => Cell.read_eq_ok_iff.trans Cell.ofText?_eq_some_iff, ?written, ?same, ?column,
    fun c => Cell.read_text, fun a b ha hb => ⟨?corners, Range.read_text ha hb,
      fun c => Range.contains_ofCorners⟩⟩
  case written =>
    intro s c letters digits h
    rw [← h.text_eq]
    exact ⟨rfl, Cell.read_text h.inside⟩
  case same =>
    intro s s' c c' letters letters' digits digits' h h'
    rw [← h.text_eq, ← h'.text_eq]
    exact Cell.text_injective.eq_iff.symm
  case column =>
    intro n ls
    constructor
    · rintro ⟨hls, hn⟩
      exact (spelled_eq_iff hls n).1 hn
    · rintro rfl
      exact ⟨capitals_columnLetters n, spelled_columnLetters n⟩
  case corners =>
    intro p hp
    obtain ⟨hfirst, hlast⟩ := Range.inside_of_opposite ha hb hp
    rw [Range.read_corners (Cell.read_text hfirst) (Cell.read_text hlast),
      Range.ofCorners_of_opposite hp]

/-- A padded reference with marks and small letters, and a rectangle by its other corners. -/
theorem sample_references_are_read_back :
    Cell.Denotes " $aa$3" ['a', 'a'] ['3'] ⟨27, 3⟩ ∧ Cell.read " $aa$3" = .ok ⟨27, 3⟩ ∧
      (Cell.mk 27 3).text = "AA3" ∧ (Cell.mk 2 7).Inside ∧ (Cell.mk 27 3).Inside ∧
      Range.read ((Cell.mk 2 7).text ++ ":" ++ "AA3") = .ok ⟨⟨2, 3⟩, ⟨27, 7⟩⟩ := by
  obtain ⟨hread, hwritten, -, -, -, hrange⟩ := references_are_read_back
  have htrimmed : trimmed " $aa$3".toList = ['$'] ++ (['a', 'a'] ++ (['$'] ++ ['3'])) := by
    decide +kernel
  have hreference : Reference (trimmed " $aa$3".toList) ['a', 'a'] ['3'] :=
    { form := ⟨['$'], ['$'], .inr rfl, .inr rfl, htrimmed⟩
      isAlpha := by simp
      letters_ne_nil := by simp
      length_letters := by simp
      isDigit := by simp [Digits]
      digits_ne_nil := by simp
      length_digits := by simp
      head_digits := by simp }
  have hdenotes : Cell.Denotes " $aa$3" ['a', 'a'] ['3'] ⟨27, 3⟩ :=
    ⟨hreference, by decide, by decide +kernel, by decide +kernel⟩
  have htext : (Cell.mk 27 3).text = "AA3" := (hwritten _ _ _ _ hdenotes).1
  have hfirst : (Cell.mk 2 7).Inside := by simp [Cell.Inside, maxColumn, maxRow]
  have hlast : (Cell.mk 27 3).Inside := hdenotes.inside
  have hcorners := (hrange _ _ hfirst hlast).1 (⟨2, 7⟩, ⟨27, 3⟩) List.mem_cons_self
  rw [htext] at hcorners
  exact ⟨hdenotes, (hread _ _).2 ⟨_, _, hdenotes⟩, htext, hfirst, hlast, hcorners⟩

end Waybill.Sheet
