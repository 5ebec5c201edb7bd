/-
  The pieces of a text between separators, and the names among them.

  * `names` are the pieces with something other than blanks in them, without the blanks around them;
  * `IsFiller`: a separator or a blank, which is in no name by itself.

  Statements: `splitOn_induction` (induction piece by piece), `names_append_cons` (a separator parts
  the names), `names_filler_append` and `names_append_filler` (fillers at the ends do not count),
  `names_eq_nil_iff` (a text without names), `cutAt?_isSome_iff` (a text is cut where the mark is).
-/
import Mathlib.Data.List.DropRight
import Mathlib.Data.List.Infix
import Waybill.Proofs.Text.Trim
import Waybill.Text.Split

namespace Waybill.Text

variable {sep : Char}

/-! ## Pieces -/

theorem splitOn_of_not_mem {cs : List Char} (h : sep ∉ cs) : splitOn sep cs = [cs] := by
  induction cs with
  | nil => rfl
  | cons c cs ih =>
    obtain ⟨hc, hcs⟩ := not_or.1 (mt List.mem_cons.2 h)
    rw [splitOn, if_neg (Ne.symm hc), ih hcs]

theorem splitOn_append_cons (xs ys : List Char) :
    splitOn sep (xs ++ sep :: ys) = splitOn sep xs ++ splitOn sep ys := by
  induction xs with
  | nil => simp [splitOn]
  | cons x xs ih =>
    rw [List.cons_append, splitOn, splitOn, ih]
    split
    · rfl
    · cases h : splitOn sep xs with
      | nil => exact absurd h (splitOn_ne_nil sep xs)
      | cons piece pieces => rfl

/-- Induction over the pieces of a text: there is one piece, or one before the first separator. -/
theorem splitOn_induction (sep : Char) {P : List Char → Prop} (whole : ∀ cs, sep ∉ cs → P cs)
    (cut : ∀ xs ys, sep ∉ xs → P ys → P (xs ++ sep :: ys)) (cs : List Char) : P cs := by
  suffices ∀ xs, sep ∉ xs → P (xs ++ cs) from this [] List.not_mem_nil
  induction cs with
  | nil => exact fun xs hxs => whole _ (by rwa [List.append_nil])
  | cons c cs ih =>
    intro xs hxs
    by_cases hc : c = sep
    · exact hc ▸ cut xs cs hxs (ih [] List.not_mem_nil)
    · have hmem : sep ∉ xs ++ [c] := by simp [hxs, Ne.symm hc]
      simpa using ih (xs ++ [c]) hmem

/-- A character that does not separate is in one of the pieces. -/
theorem exists_mem_splitOn (sep : Char) {d : Char} (hd : d ≠ sep) {cs : List Char} (h : d ∈ cs) :
    ∃ piece ∈ splitOn sep cs, d ∈ piece := by
  induction cs using splitOn_induction sep with
  | whole cs hcs => exact ⟨cs, by simp [splitOn_of_not_mem hcs], h⟩
  | cut xs ys hxs ih =>
    rw [splitOn_append_cons, splitOn_of_not_mem hxs]
    rcases List.mem_append.1 h with h | h
    · exact ⟨xs, by simp, h⟩
    · obtain ⟨piece, hpiece, hmem⟩ := ih ((List.mem_cons.1 h).resolve_left hd)
      exact ⟨piece, List.mem_append_right _ hpiece, hmem⟩

/-! ## Names -/

/-- The pieces of a text between separators that are not blank, without the blanks around them. -/
def names (sep : Char) (cs : List Char) : List (List Char) :=
  ((splitOn sep cs).map trimmed).filter fun name => !name.isEmpty

/-- A separator or a blank. -/
def IsFiller (sep c : Char) : Prop :=
  c = sep ∨ isBlank c

instance (sep c : Char) : Decidable (IsFiller sep c) :=
  inferInstanceAs (Decidable (_ ∨ _))

theorem names_nil : names sep [] = [] := rfl

/-- A separator parts the names. -/
theorem names_append_cons (xs ys : List Char) :
    names sep (xs ++ sep :: ys) = names sep xs ++ names sep ys := by
  rw [names, splitOn_append_cons, List.map_append, List.filter_append]
  rfl

theorem names_of_not_mem {cs : List Char} (h : sep ∉ cs) :
    names sep cs = [trimmed cs].filter fun name => !name.isEmpty := by
  rw [names, splitOn_of_not_mem h, List.map_singleton]

theorem trimmed_cons_of_blank {c : Char} (h : isBlank c = true) (cs : List Char) :
    trimmed (c :: cs) = trimmed cs := by
  rw [trimmed, dropBlanks, List.dropWhile_cons_of_pos h]
  rfl

theorem trimmed_concat_of_blank {c : Char} (h : isBlank c = true) (cs : List Char) :
    trimmed (cs ++ [c]) = trimmed cs := by
  have hend (ds : List Char) : dropBlanksEnd (ds ++ [c]) = dropBlanksEnd ds :=
    List.rdropWhile_concat_pos isBlank ds c h
  unfold trimmed dropBlanks
  rw [List.dropWhile_append]
  split
  · next hnil =>
    rw [List.isEmpty_iff.1 hnil, List.dropWhile_cons_of_pos h]
    rfl
  · exact hend _

/-- A filler at the front does not count. -/
theorem names_cons_of_filler {c : Char} (h : IsFiller sep c) (cs : List Char) :
    names sep (c :: cs) = names sep cs := by
  by_cases hc : c = sep
  · exact hc ▸ names_append_cons [] cs
  · have hblank : isBlank c = true := h.resolve_left hc
    induction cs using splitOn_induction sep with
    | whole cs hcs =>
      have hmem : sep ∉ c :: cs := by simp [hcs, Ne.symm hc]
      rw [names_of_not_mem hmem, names_of_not_mem hcs, trimmed_cons_of_blank hblank]
    | cut xs ys hxs ih =>
      have hmem : sep ∉ c :: xs := by simp [hxs, Ne.symm hc]
      rw [← List.cons_append, names_append_cons, names_append_cons, names_of_not_mem hmem,
        names_of_not_mem hxs, trimmed_cons_of_blank hblank]

theorem names_concat_of_filler {c : Char} (h : IsFiller sep c) (cs : List Char) :
    names sep (cs ++ [c]) = names sep cs := by
  by_cases hc : c = sep
  · rw [hc, names_append_cons, names_nil, List.append_nil]
  · have hblank : isBlank c = true := h.resolve_left hc
    induction cs using splitOn_induction sep with
    | whole cs hcs =>
      have hmem : sep ∉ cs ++ [c] := by simp [hcs, Ne.symm hc]
      rw [names_of_not_mem hmem, names_of_not_mem hcs, trimmed_concat_of_blank hblank]
    | cut xs ys hxs ih =>
      rw [List.append_assoc, List.cons_append, names_append_cons, names_append_cons, ih]

theorem names_filler_append {filler : List Char} (h : ∀ c ∈ filler, IsFiller sep c)
    (cs : List Char) : names sep (filler ++ cs) = names sep cs := by
  induction filler with
  | nil => rfl
  | cons c filler ih =>
    obtain ⟨hc, hfiller⟩ := List.forall_mem_cons.1 h
    rw [List.cons_append, names_cons_of_filler hc, ih hfiller]

theorem names_append_filler {filler : List Char} (h : ∀ c ∈ filler, IsFiller sep c)
    (cs : List Char) : names sep (cs ++ filler) = names sep cs := by
  induction filler generalizing cs with
  | nil => rw [List.append_nil]
  | cons c filler ih =>
    obtain ⟨hc, hfiller⟩ := List.forall_mem_cons.1 h
    rw [← List.concat_append, List.concat_eq_append, ih hfiller, names_concat_of_filler hc]

/-- Only fillers make a text without names. -/
theorem names_eq_nil_iff {cs : List Char} : names sep cs = [] ↔ ∀ c ∈ cs, IsFiller sep c := by
  constructor
  · intro h c hc
    by_contra hfiller
    obtain ⟨hsep, hblank⟩ := not_or.1 hfiller
    obtain ⟨piece, hpiece, hmem⟩ := exists_mem_splitOn sep hsep hc
    have hleft : c ∈ trimmed piece := mem_trimmed (Bool.not_eq_true _ ▸ hblank) hmem
    have hname : trimmed piece ∈ names sep cs :=
      List.mem_filter.2 ⟨List.mem_map_of_mem hpiece, by simpa using List.ne_nil_of_mem hleft⟩
    exact List.ne_nil_of_mem hname h
  · intro h
    rw [← List.append_nil cs, names_filler_append h, names_nil]

theorem names_dropWhile {p : Char → Bool} (hp : ∀ c, p c = true → IsFiller sep c)
    (cs : List Char) : names sep (cs.dropWhile p) = names sep cs := by
  conv_rhs => rw [← List.takeWhile_append_dropWhile (p := p) (l := cs)]
  exact (names_filler_append (fun c hc => hp c (List.mem_takeWhile_imp hc)) _).symm

theorem names_rdropWhile {p : Char → Bool} (hp : ∀ c, p c = true → IsFiller sep c)
    (cs : List Char) : names sep (cs.rdropWhile p) = names sep cs := by
  conv_rhs => rw [← List.rdropWhile_append_rtakeWhile (p := p) (l := cs)]
  exact (names_append_filler (fun c hc => hp c (List.mem_rtakeWhile_imp hc)) _).symm

/-! ## Marks -/

/-- A text is cut where the mark is in it. -/
theorem cutAt?_isSome_iff {mark cs : List Char} : (cutAt? mark cs).isSome ↔ mark <:+: cs := by
  induction cs with
  | nil =>
    unfold cutAt?
    cases mark <;> simp
  | cons c cs ih =>
    unfold cutAt?
    split
    · next h => simpa using (List.isPrefixOf_iff_prefix.1 h).isInfix
    · next h =>
      rw [Option.isSome_map, ih, List.infix_cons_iff,
        or_iff_right fun hp => h (List.isPrefixOf_iff_prefix.2 hp)]

end Waybill.Text
