/-
  Values that are written are read again.

  A value is read off the front of a text, so it matters what comes after it: a name or a number
  must not go on there, and a number must not be the first of a reference.

  * `Object.isLegible` are the values that are read as what they are;
  * `Ends`: a name ends before a text; `Apart`: so does any value;
  * `Begins`: the first character of a value.

  Statements: `apart_written` (one value stands apart from the next), `valueIn_written` with
  `itemsIn_written` and `entriesIn_written` (a value is read as itself), `lt_of_mem_written` (its
  text is one of bytes).
-/
import Mathlib
import Waybill.Proofs.Pdf.Objects

namespace Waybill.Pdf

open Waybill.Decimal

/-! ## Blanks and numbers -/

theorem skipSpace_of_isBlank {c : Char} (h : isBlank c = true) (cs : List Char) :
    skipSpace (c :: cs) = skipSpace cs := by
  rw [skipSpace, if_pos h]

theorem skipSpace_of_not_isBlank {c : Char} (h : isBlank c = false) (hc : c ≠ '%')
    (cs : List Char) : skipSpace (c :: cs) = c :: cs := by
  rw [skipSpace, if_neg (by simp [h]), if_neg hc]

theorem not_isBlank_of_isDigit {c : Char} (h : c.isDigit = true) : isBlank c = false := by
  by_contra hc
  simp only [isBlank, Bool.or_eq_true, decide_eq_true_eq, Bool.not_eq_false] at hc
  rcases hc with ((((rfl | rfl) | rfl) | rfl) | rfl) | rfl <;> exact absurd h (by decide)

theorem skipSpace_of_isDigit {c : Char} (h : c.isDigit = true) (cs : List Char) :
    skipSpace (c :: cs) = c :: cs := by
  refine skipSpace_of_not_isBlank (not_isBlank_of_isDigit h) ?_ cs
  rintro rfl
  exact absurd h (by decide)

theorem natOf_toDigits (n : Nat) : natOf (Nat.toDigits 10 n) = n := by
  rw [natOf]
  simp only [Nat.mul_comm _ 10]
  exact Nat.ofDigitChars_ten_toDigits

theorem isDigit_of_mem_toDigits {n : Nat} {c : Char} (h : c ∈ Nat.toDigits 10 n) :
    c.isDigit = true :=
  Nat.isDigit_of_mem_toDigits (by decide) (by decide) h

theorem exists_toDigits (n : Nat) :
    ∃ c cs, Nat.toDigits 10 n = c :: cs ∧ c.isDigit = true := by
  cases h : Nat.toDigits 10 n with
  | nil => exact absurd h Nat.toDigits_ne_nil
  | cons c cs => exact ⟨c, cs, rfl, isDigit_of_mem_toDigits (h ▸ List.mem_cons_self)⟩

/-- Digits end where no digit comes next. -/
theorem run_append {ds rest : List Char} (hds : ∀ c ∈ ds, c.isDigit = true)
    (hrest : ∀ c ∈ rest.head?, c.isDigit = false) : run (ds ++ rest) = (ds, rest) := by
  have hend : rest.takeWhile Char.isDigit = [] ∧ rest.dropWhile Char.isDigit = rest := by
    cases rest with
    | nil => exact ⟨rfl, rfl⟩
    | cons c rest => simp [hrest c rfl]
  rw [run, List.takeWhile_append_of_pos hds, List.dropWhile_append_of_pos hds, hend.1, hend.2,
    List.append_nil]

theorem run_of_isDigit {ds : List Char} (h : ∀ c ∈ ds, c.isDigit = true) : run ds = (ds, []) := by
  have hend : ∀ c ∈ ([] : List Char).head?, c.isDigit = false := by simp
  have hrun := run_append h hend
  rwa [List.append_nil] at hrun

theorem run_of_not_isDigit {cs : List Char} (h : ∀ c ∈ cs.head?, c.isDigit = false) :
    run cs = ([], cs) :=
  run_append (List.forall_mem_nil _) h

theorem digits?_toDigits {bound n : Nat} (h : n < bound) {rest : List Char}
    (hrest : ∀ c ∈ rest.head?, c.isDigit = false) :
    digits? bound (Nat.toDigits 10 n ++ rest) = some (n, rest) := by
  simp only [digits?, run_append (fun _ => isDigit_of_mem_toDigits) hrest, natOf_toDigits]
  simp [Nat.toDigits_ne_nil, h]

theorem digits?_eq_none {bound : Nat} {cs : List Char}
    (h : ∀ c ∈ cs.head?, c.isDigit = false) : digits? bound cs = none := by
  simp [digits?, run_of_not_isDigit h]

/-! ## Names -/

/-- The texts that end a name: nothing, or no regular character first. -/
def Ends (rest : List Char) : Prop :=
  ∀ c ∈ rest.head?, isRegular c = false

theorem hexDigit?_digit : ∀ d < 16,
    Json.hexDigit? (if d < 10 then Char.ofNat (48 + d) else Char.ofNat (55 + d)) = some d := by
  decide

theorem hexDigit?_hexPair {n : Nat} (h : n < 256) : ∃ a b, hexPair n = [a, b] ∧
    Json.hexDigit? a = some (n / 16) ∧ Json.hexDigit? b = some (n % 16) := by
  have hhigh := hexDigit?_digit (n / 16 % 16) (by omega)
  have hlow := hexDigit?_digit (n % 16) (by omega)
  rw [Nat.mod_eq_of_lt (by omega : n / 16 < 16)] at hhigh
  refine ⟨_, _, ?_, hhigh, hlow⟩
  rw [hexPair, Nat.mod_eq_of_lt (by omega : n / 16 < 16)]

theorem ofNat_hex (c : Char) : Char.ofNat (16 * (c.toNat / 16) + c.toNat % 16) = c := by
  rw [Nat.div_add_mod, Char.ofNat_toNat]

theorem nameBody_of_ends {rest : List Char} (h : Ends rest) (read : List Char) :
    nameBody read rest = (String.ofList read.reverse, rest) := by
  cases rest with
  | nil => rw [nameBody]
  | cons c cs =>
    have hc := h c rfl
    have hmark : c ≠ '#' := by
      rintro rfl
      exact absurd hc (by decide)
    rw [nameBody, hc]
    · rfl
    · rintro a b rest rfl
      exact fun _ => hmark rfl

theorem nameBody_written {cs rest : List Char} (hcs : ∀ c ∈ cs, c.toNat < 256) (hrest : Ends rest)
    (read : List Char) : nameBody read ((cs.flatMap fun c =>
      if isRegular c && c ≠ '#' && '!' ≤ c && c ≤ '~' then [c] else '#' :: hexPair c.toNat) ++
        rest) = (String.ofList (read.reverse ++ cs), rest) := by
  induction cs generalizing read with
  | nil => rw [List.flatMap_nil, List.nil_append, nameBody_of_ends hrest, List.append_nil]
  | cons c cs ih =>
    obtain ⟨hc, hcs⟩ := List.forall_mem_cons.1 hcs
    have hread : (c :: read).reverse ++ cs = read.reverse ++ c :: cs := by simp
    rw [List.flatMap_cons, List.append_assoc, ← hread]
    split
    · next h =>
      simp only [Bool.and_eq_true, decide_eq_true_eq] at h
      obtain ⟨⟨⟨hregular, hmark⟩, -⟩, -⟩ := h
      rw [List.singleton_append, nameBody, if_pos (by simp [hregular, hmark]), ih hcs]
      rintro a b rest rfl
      exact fun _ => hmark rfl
    · obtain ⟨a, b, hpair, ha, hb⟩ := hexDigit?_hexPair hc
      rw [hpair, List.cons_append, List.cons_append, List.cons_append, List.nil_append, nameBody,
        ha, hb]
      dsimp only
      rw [ofNat_hex, ih hcs]

/-! ## Strings -/

theorem stringBody_escape {c : Char} (hline : endsLine c = false) (hoctal : isOctal c = false)
    (read cs : List Char) :
    stringBody 0 read ('\\' :: c :: cs) = stringBody 0 (unescaped c :: read) cs := by
  rw [stringBody, if_neg (by simp [hline]), if_neg (by simp [hoctal])]
  rintro rest rfl
  exact absurd hline (by decide)

theorem stringBody_plain {c : Char} (hc : c ∉ ['\\', '\r', '(', ')'])
    (read cs : List Char) : stringBody 0 read (c :: cs) = stringBody 0 (c :: read) cs := by
  simp only [List.mem_cons, List.not_mem_nil, or_false, not_or] at hc
  obtain ⟨hslash, hreturn, hopen, hclose⟩ := hc
  rw [stringBody, if_neg hclose, if_neg hopen, if_neg hreturn]
  · exact fun h => absurd h hslash
  · exact fun rest h => absurd h hslash
  · exact fun d rest h => absurd h hslash
  · exact fun rest h => absurd h hreturn

theorem stringBody_written (cs rest read : List Char) :
    stringBody 0 read ((cs.flatMap fun c =>
      if c = '\r' then ['\\', 'r']
      else if c = '(' || c = ')' || c = '\\' then ['\\', c] else [c]) ++ ')' :: rest) =
        some (String.ofList (read.reverse ++ cs), rest) := by
  induction cs generalizing read with
  | nil => simp [stringBody]
  | cons c cs ih =>
    have hread : (c :: read).reverse ++ cs = read.reverse ++ c :: cs := by simp
    rw [List.flatMap_cons, List.append_assoc, ← hread, ← ih (c :: read)]
    split
    · next h =>
      subst h
      exact stringBody_escape (by decide) (by decide) read _
    · next hreturn =>
      split
      · next h =>
        simp only [Bool.or_eq_true, decide_eq_true_eq] at h
        rcases h with (rfl | rfl) | rfl <;>
          exact stringBody_escape (by decide) (by decide) read _
      · next h =>
        simp only [Bool.or_eq_true, decide_eq_true_eq, not_or] at h
        exact stringBody_plain (by simp [h, hreturn]) read _

theorem hexBody?_written {cs : List Char} (hcs : ∀ c ∈ cs, c.toNat < 256) (rest : List Char) :
    hexBody? ((cs.flatMap fun c => hexPair c.toNat) ++ '>' :: rest) =
      some (String.ofList cs, rest) := by
  have hinside : ∀ c ∈ cs.flatMap fun c => hexPair c.toNat,
      (isBlank c || (Json.hexDigit? c).isSome) = true := by
    intro d hd
    obtain ⟨c, hc, hd⟩ := List.mem_flatMap.1 hd
    obtain ⟨a, b, hpair, ha, hb⟩ := hexDigit?_hexPair (hcs c hc)
    rw [hpair] at hd
    rcases List.mem_pair.1 hd with rfl | rfl
    · simp [ha]
    · simp [hb]
  have hpairs : ofHexPairs ((cs.flatMap fun c => hexPair c.toNat).filterMap Json.hexDigit?) =
      cs := by
    clear hinside
    induction cs with
    | nil => rfl
    | cons c cs ih =>
      obtain ⟨hc, hcs⟩ := List.forall_mem_cons.1 hcs
      obtain ⟨a, b, hpair, ha, hb⟩ := hexDigit?_hexPair hc
      rw [List.flatMap_cons, hpair, List.filterMap_append, List.filterMap_cons_some ha,
        List.filterMap_cons_some hb, List.filterMap_nil, List.cons_append, List.cons_append,
        List.nil_append, ofHexPairs, ofNat_hex, ih hcs]
  unfold hexBody?
  simp only [List.dropWhile_append_of_pos hinside, List.takeWhile_append_of_pos hinside]
  have hclose : (isBlank '>' || (Json.hexDigit? '>').isSome) = false := by decide
  rw [List.dropWhile_cons_of_neg (by simp [hclose]), List.takeWhile_cons_of_neg (by simp [hclose])]
  simp [hpairs]

/-! ## Numbers among other values -/

theorem tag?_eq_none {word : String} {c : Char} {rest : List Char} (h : word.toList.head? ≠ some c)
    (hword : word.toList ≠ []) : tag? word (c :: rest) = none := by
  rw [tag?, if_neg]
  intro hprefix
  cases hw : word.toList with
  | nil => exact hword hw
  | cons d ds =>
    rw [hw] at h hprefix
    simp only [List.isPrefixOf, Bool.and_eq_true, beq_iff_eq] at hprefix
    exact h (congrArg some hprefix.1)

/-- The rest after digits is what no digit begins. -/
theorem eq_of_digits? {bound n : Nat} {ds rest cs : List Char}
    (hds : ∀ c ∈ ds, c.isDigit = true) (hrest : ∀ c ∈ rest.head?, c.isDigit = false)
    (h : digits? bound (ds ++ rest) = some (n, cs)) : cs = rest := by
  simp only [digits?, run_append hds hrest] at h
  split at h
  · cases h
  · exact (congrArg Prod.snd (Option.some.inj h)).symm

/-- The parts of a real number: digits, a point and digits. -/
theorem exists_of_real? {cs : List Char} {o : Object} (h : real? cs = some (o, [])) :
    ∃ whole fraction, (sign cs).2 = whole ++ '.' :: fraction ∧
      (∀ c ∈ whole, c.isDigit = true) ∧ ∀ c ∈ fraction, c.isDigit = true := by
  have hall : ∀ ds : List Char, ∀ c ∈ ds.takeWhile Char.isDigit, c.isDigit = true :=
    fun ds c hc => (List.mem_takeWhile_imp hc)
  have hsplit := List.takeWhile_append_dropWhile (p := Char.isDigit) (l := (sign cs).2)
  unfold real? run at h
  dsimp only at h
  split at h
  · next tail htail =>
    split at h
    · cases h
    · have hend : tail.dropWhile Char.isDigit = [] := congrArg Prod.snd (Option.some.inj h)
      have hfraction := List.takeWhile_append_dropWhile (p := Char.isDigit) (l := tail)
      rw [hend, List.append_nil] at hfraction
      rw [htail] at hsplit
      exact ⟨_, tail, hsplit.symm, hall _, hfraction ▸ hall tail⟩
  · cases h

theorem sign_append {cs : List Char} (h : cs ≠ []) (rest : List Char) :
    sign (cs ++ rest) = ((sign cs).1, (sign cs).2 ++ rest) := by
  cases cs with
  | nil => exact absurd rfl h
  | cons c cs =>
    rw [List.cons_append]
    unfold sign
    split
    · next heq => cases heq; rfl
    · next heq => cases heq; rfl
    · next hplus hminus =>
      split
      · next heq => cases heq; exact absurd rfl (hplus _)
      · next heq => cases heq; exact absurd rfl (hminus _)
      · rfl

theorem not_isDigit_point : ∀ (cs : List Char), ∀ c ∈ ('.' :: cs).head?, c.isDigit = false := by
  rintro cs c ⟨⟩
  decide

theorem real?_append {cs : List Char} {o : Object} (h : real? cs = some (o, []))
    {rest : List Char} (hrest : ∀ c ∈ rest.head?, c.isDigit = false) :
    real? (cs ++ rest) = some (o, rest) := by
  obtain ⟨whole, fraction, hsign, hwhole, hfraction⟩ := exists_of_real? h
  have hne : cs ≠ [] := by
    rintro rfl
    cases h
  simp only [real?, hsign, run_append hwhole (not_isDigit_point _),
    run_of_isDigit hfraction] at h
  simp only [real?, sign_append hne, hsign, List.append_assoc, List.cons_append,
    run_append hwhole (not_isDigit_point _), run_append hfraction hrest]
  split at h
  · cases h
  · next hdigits =>
    obtain rfl := congrArg Prod.fst (Option.some.inj h)
    rw [if_neg hdigits]


/-! ## Legible values -/

/-- The characters are bytes. -/
def areBytes (text : String) : Bool :=
  text.toList.all fun c => c.toNat < 256

mutual

/-- Whether a value is read again once it is written: its characters are bytes, its integers have
    64 bits, its real numbers a point, and its dictionaries each entry once. -/
def Object.isLegible : Object → Bool
  | .null | .bool _ => true
  | .int n => -2 ^ 63 ≤ n && n < 2 ^ 63
  | .real bits => real? (binary32.text bits.toNat).toList = some (.real bits, [])
  | .name text | .string text _ => areBytes text
  | .array items => areLegible items
  | .dict entries => haveLegible entries
  | .stream .. => false
  | .ref r => r.number < 2 ^ 32 && r.generation < 2 ^ 16

/-- Whether items are read again. -/
def areLegible : List Object → Bool
  | [] => true
  | o :: items => o.isLegible && areLegible items

/-- Whether entries are read again. -/
def haveLegible : List (String × Object) → Bool
  | [] => true
  | (name, o) :: entries =>
    areBytes name && !Dict.has name entries && o.isLegible && haveLegible entries

end

theorem lt_of_areBytes {text : String} (h : areBytes text = true) :
    ∀ c ∈ text.toList, c.toNat < 256 := by
  simpa [areBytes] using h

theorem haveLegible_erase {d : Dict} (h : haveLegible d = true) (name : String) :
    haveLegible (d.erase name) = true := by
  induction d with
  | nil => rfl
  | cons e d ih =>
    obtain ⟨n, o⟩ := e
    simp only [haveLegible, Bool.and_eq_true, Bool.not_eq_true'] at h
    obtain ⟨⟨⟨hname, hnew⟩, ho⟩, hd⟩ := h
    by_cases hn : n = name
    · rw [Dict.erase, List.filter_cons_of_neg (by simpa using hn)]
      exact ih hd
    · have hstill : Dict.has n (Dict.erase name d) = false := by
        rw [Dict.has, Dict.get?_erase, if_neg (Ne.symm hn), ← Dict.has, hnew]
      rw [Dict.erase, List.filter_cons_of_pos (by simpa using hn)]
      simp only [haveLegible, Bool.and_eq_true, Bool.not_eq_true']
      exact ⟨⟨⟨hname, hstill⟩, ho⟩, ih hd⟩

theorem haveLegible_set {d : Dict} (h : haveLegible d = true) {name : String} {v : Object}
    (hname : areBytes name = true) (hv : v.isLegible = true) :
    haveLegible (d.set name v) = true := by
  induction d with
  | nil => simp [Dict.set, haveLegible, hname, hv, Dict.has, Dict.get?]
  | cons e d ih =>
    obtain ⟨n, o⟩ := e
    simp only [haveLegible, Bool.and_eq_true, Bool.not_eq_true'] at h
    obtain ⟨⟨⟨hn, hnew⟩, ho⟩, hd⟩ := h
    rw [Dict.set]
    split
    · next heq =>
      subst heq
      simp only [haveLegible, Bool.and_eq_true, Bool.not_eq_true']
      exact ⟨⟨⟨hn, hnew⟩, hv⟩, hd⟩
    · next hne =>
      have hstill : Dict.has n (Dict.set name v d) = false := by
        rw [Dict.has, Dict.get?_set, if_neg (Ne.symm hne), ← Dict.has, hnew]
      simp only [haveLegible, Bool.and_eq_true, Bool.not_eq_true']
      exact ⟨⟨⟨hn, hstill⟩, ho⟩, ih hd⟩

theorem isLegible_natCast {n : Nat} (h : n < 2 ^ 63) : (Object.int n).isLegible = true := by
  simp only [Object.isLegible, Bool.and_eq_true, decide_eq_true_eq]
  omega

theorem areLegible_of_forall {items : List Object} (h : ∀ o ∈ items, o.isLegible = true) :
    areLegible items = true := by
  induction items with
  | nil => rfl
  | cons o items ih =>
    obtain ⟨ho, h⟩ := List.forall_mem_cons.1 h
    rw [areLegible, ho, ih h]
    rfl

/-! ## What stands before and after a value -/

/-- A text that may come after any value: no name and no number goes on in it, and it makes no
    reference of a number before it. -/
structure Apart (rest : List Char) : Prop where
  ends : Ends rest
  no_mark : tag? "R" (skipSpace rest) = none
  no_number : ∀ b n cs, digits? b (skipSpace rest) = some (n, cs) → tag? "R" (skipSpace cs) = none

theorem isRegular_of_isDigit {c : Char} (h : c.isDigit = true) : isRegular c = true := by
  have hne : ∀ d : Char, d.isDigit = false → c ≠ d := by
    rintro d hd rfl
    rw [h] at hd
    cases hd
  have hdelimiter : isDelimiter c = false := by
    simp [isDelimiter, hne]
  rw [isRegular, not_isBlank_of_isDigit h, hdelimiter]
  rfl

theorem Ends.not_isDigit {rest : List Char} (h : Ends rest) :
    ∀ c ∈ rest.head?, c.isDigit = false := fun c hc => by
  by_contra hdigit
  rw [Bool.not_eq_false] at hdigit
  exact absurd (isRegular_of_isDigit hdigit) (by simp [h c hc])

/-- A delimiter sets values apart. -/
theorem apart_of_delimiter {c : Char} (h : isDelimiter c = true) (hc : c ≠ '%') (cs : List Char) :
    Apart (c :: cs) := by
  have hregular : isRegular c = false := by simp [isRegular, h]
  have hblank : isBlank c = false := by
    by_contra hblank
    simp only [isBlank, Bool.or_eq_true, decide_eq_true_eq, Bool.not_eq_false] at hblank
    rcases hblank with ((((rfl | rfl) | rfl) | rfl) | rfl) | rfl <;> exact absurd h (by decide)
  have hspace := skipSpace_of_not_isBlank hblank hc cs
  have hends : Ends (c :: cs) := by
    rintro d ⟨⟩
    exact hregular
  refine ⟨hends, ?_, fun b n ds hd => ?_⟩
  · rw [hspace]
    refine tag?_eq_none (fun heq => ?_) (by decide)
    obtain rfl : 'R' = c := Option.some.inj heq
    exact absurd hregular (by decide)
  · rw [hspace, digits?_eq_none hends.not_isDigit] at hd
    cases hd

/-- The first character of a value. -/
structure Begins (o : Object) (c : Char) : Prop where
  not_blank : isBlank c = false
  ne_comment : c ≠ '%'
  ne_mark : c ≠ 'R'
  delimits : needsBlank o = false → isDelimiter c = true

theorem begins_of_isDigit {c : Char} (h : c.isDigit = true) {o : Object}
    (ho : needsBlank o = true) : Begins o c where
  not_blank := not_isBlank_of_isDigit h
  ne_comment := by
    rintro rfl
    exact absurd h (by decide)
  ne_mark := by
    rintro rfl
    exact absurd h (by decide)
  delimits hneeds := by
    rw [ho] at hneeds
    cases hneeds

/-- The text of a number begins with a digit, a sign or a point. -/
theorem exists_head_of_real? {cs : List Char} {o : Object} (h : real? cs = some (o, [])) :
    ∃ c ds, cs = c :: ds ∧ (c.isDigit = true ∨ c ∈ ['+', '-', '.']) := by
  obtain ⟨whole, fraction, hsign, hwhole, -⟩ := exists_of_real? h
  cases cs with
  | nil => cases h
  | cons c cs =>
    refine ⟨c, cs, rfl, ?_⟩
    unfold sign at hsign
    split at hsign
    · next heq => cases heq; simp
    · next heq => cases heq; simp
    · cases whole with
      | nil =>
        obtain rfl := (List.cons.inj hsign).1
        simp
      | cons d whole =>
        obtain rfl := (List.cons.inj hsign).1
        exact Or.inl (hwhole _ List.mem_cons_self)

theorem exists_begins {o : Object} (h : o.isLegible = true) :
    ∃ c cs, written o = c :: cs ∧ Begins o c := by
  cases o with
  | null => exact ⟨'n', _, rfl, by decide, by decide, by decide, by simp [needsBlank]⟩
  | bool b =>
    cases b
    · exact ⟨'f', _, rfl, by decide, by decide, by decide, by simp [needsBlank]⟩
    · exact ⟨'t', _, rfl, by decide, by decide, by decide, by simp [needsBlank]⟩
  | int n =>
    cases n with
    | ofNat n =>
      obtain ⟨c, cs, hcs, hc⟩ := exists_toDigits n
      exact ⟨c, cs, by simp [written, Int.toString_eq_repr, Int.repr, hcs],
        begins_of_isDigit hc rfl⟩
    | negSucc n =>
      exact ⟨'-', _, by simp [written, Int.toString_eq_repr, Int.repr]; rfl,
        by decide, by decide, by decide, by simp [needsBlank]⟩
  | real bits =>
    simp only [Object.isLegible, decide_eq_true_eq] at h
    obtain ⟨c, cs, hcs, hc⟩ := exists_head_of_real? h
    refine ⟨c, cs, hcs, ?_⟩
    rcases hc with hc | hc
    · exact begins_of_isDigit hc rfl
    · simp only [List.mem_cons, List.not_mem_nil, or_false] at hc
      rcases hc with rfl | rfl | rfl <;>
        exact ⟨by decide, by decide, by decide, by simp [needsBlank]⟩
  | name text => exact ⟨'/', _, rfl, by decide, by decide, by decide, fun _ => by decide⟩
  | string text hexadecimal =>
    cases hexadecimal
    · exact ⟨'(', _, rfl, by decide, by decide, by decide, fun _ => by decide⟩
    · exact ⟨'<', _, rfl, by decide, by decide, by decide, fun _ => by decide⟩
  | array items => exact ⟨'[', _, rfl, by decide, by decide, by decide, fun _ => by decide⟩
  | dict entries => exact ⟨'<', _, rfl, by decide, by decide, by decide, fun _ => by decide⟩
  | stream entries content => cases h
  | ref r =>
    obtain ⟨c, cs, hcs, hc⟩ := exists_toDigits r.number
    exact ⟨c, _, by simp [written, hcs]; rfl, begins_of_isDigit hc rfl⟩


theorem written_ref (r : Ref) : written (.ref r) =
    Nat.toDigits 10 r.number ++ ' ' :: (Nat.toDigits 10 r.generation ++ [' ', 'R']) := by
  simp [written]

theorem written_ofNat (n : Nat) : written (.int (Int.ofNat n)) = Nat.toDigits 10 n := by
  simp [written, Int.toString_eq_repr, Int.repr]

theorem written_negSucc (n : Nat) :
    written (.int (Int.negSucc n)) = '-' :: Nat.toDigits 10 (n + 1) := by
  simp [written, Int.toString_eq_repr, Int.repr]

theorem not_isDigit_cons {c : Char} (h : c.isDigit = false) (cs : List Char) :
    ∀ d ∈ (c :: cs).head?, d.isDigit = false := by
  rintro d ⟨⟩
  exact h

/-- Where a real number begins with digits, a point comes next. -/
theorem no_mark_of_real {text rest : List Char} {o : Object} (h : real? text = some (o, []))
    {b n : Nat} {cs : List Char} (hd : digits? b (text ++ rest) = some (n, cs)) :
    tag? "R" (skipSpace cs) = none := by
  obtain ⟨whole, fraction, hsign, hwhole, -⟩ := exists_of_real? h
  have hnone : ∀ {c ds}, text = c :: ds → c.isDigit = false → tag? "R" (skipSpace cs) = none := by
    rintro c ds rfl hc
    rw [List.cons_append, digits?_eq_none (not_isDigit_cons hc _)] at hd
    cases hd
  unfold sign at hsign
  split at hsign
  · exact hnone rfl (by decide)
  · exact hnone rfl (by decide)
  · dsimp only at hsign
    rw [hsign, List.append_assoc, List.cons_append] at hd
    rw [eq_of_digits? hwhole (not_isDigit_point _) hd,
      skipSpace_of_not_isBlank (by decide) (by decide)]
    exact tag?_eq_none (by decide) (by decide)

/-- A number at the front of a value is not the second of a reference, unless it is so in the
    value. -/
theorem no_mark_of_written {o : Object} (h : o.isLegible = true) {rest : List Char}
    (hrest : Apart rest) {b n : Nat} {cs : List Char}
    (hd : digits? b (written o ++ rest) = some (n, cs)) : tag? "R" (skipSpace cs) = none := by
  have hhead : ∀ {c ds}, written o = c :: ds → c.isDigit = false →
      tag? "R" (skipSpace cs) = none := by
    intro c ds hwritten hc
    rw [hwritten, List.cons_append, digits?_eq_none (not_isDigit_cons hc _)] at hd
    cases hd
  cases o with
  | null => exact hhead rfl (by decide)
  | bool b => cases b <;> exact hhead rfl (by decide)
  | int n =>
    cases n with
    | ofNat n =>
      rw [written_ofNat] at hd
      rw [eq_of_digits? (fun _ => isDigit_of_mem_toDigits) hrest.ends.not_isDigit hd]
      exact hrest.no_mark
    | negSucc n => exact hhead (written_negSucc n) (by decide)
  | real bits =>
    simp only [Object.isLegible, decide_eq_true_eq] at h
    exact no_mark_of_real h hd
  | name text => exact hhead rfl (by decide)
  | string text hexadecimal => cases hexadecimal <;> exact hhead rfl (by decide)
  | array items => exact hhead rfl (by decide)
  | dict entries => exact hhead rfl (by decide)
  | stream entries content => cases h
  | ref r =>
    rw [written_ref, List.append_assoc, List.cons_append] at hd
    obtain ⟨c, ds, hds, hc⟩ := exists_toDigits r.generation
    rw [eq_of_digits? (fun _ => isDigit_of_mem_toDigits) (not_isDigit_cons (by decide) _) hd,
      skipSpace_of_isBlank (by decide), hds, List.cons_append, List.cons_append,
      skipSpace_of_isDigit hc]
    refine tag?_eq_none (fun heq => ?_) (by decide)
    obtain rfl : 'R' = c := Option.some.inj heq
    exact absurd hc (by decide)

/-- A value set apart from what stands before it. -/
theorem apart_written {o : Object} (h : o.isLegible = true) {rest : List Char}
    (hrest : Apart rest) : Apart ((if needsBlank o then [' '] else []) ++ written o ++ rest) := by
  obtain ⟨c, cs, hcs, hc⟩ := exists_begins h
  have hspace : skipSpace (written o ++ rest) = written o ++ rest := by
    rw [hcs, List.cons_append, skipSpace_of_not_isBlank hc.not_blank hc.ne_comment]
  split
  · have hblank : skipSpace ([' '] ++ written o ++ rest) = written o ++ rest := by
      rw [List.append_assoc, List.singleton_append, skipSpace_of_isBlank (by decide), hspace]
    refine ⟨?_, ?_, fun b n ds hd => ?_⟩
    · rintro d ⟨⟩
      decide
    · rw [hblank, hcs, List.cons_append]
      refine tag?_eq_none (fun heq => hc.ne_mark ?_) (by decide)
      exact (Option.some.inj heq).symm
    · rw [hblank] at hd
      exact no_mark_of_written h hrest hd
  · next hneeds =>
    rw [List.nil_append, hcs, List.cons_append]
    exact apart_of_delimiter (hc.delimits (by simpa using hneeds)) hc.ne_comment _

/-! ## Values read -/

/-- What begins like a number is a reference or a number. -/
theorem valueIn_number {c : Char} (hc : c.isDigit = true ∨ c ∈ ['+', '-', '.', ']']) (fuel : Nat)
    (cs : List Char) : valueIn (fuel + 1) (c :: cs) =
      (reference? (c :: cs) <|> real? (c :: cs) <|>
        (integer? (c :: cs)).map fun n => (.int n.1, n.2)) := by
  have hother : c ∉ ['t', 'f', 'n', '/', '(', '<', '['] := by
    intro hmem
    simp only [List.mem_cons, List.not_mem_nil, or_false] at hmem
    rcases hmem with rfl | rfl | rfl | rfl | rfl | rfl | rfl <;> exact absurd hc (by decide)
  simp only [List.mem_cons, List.not_mem_nil, or_false, not_or] at hother
  rw [valueIn.eq_def]
  dsimp only
  split <;> simp_all


theorem reference?_eq_none {cs : List Char} (h : ∀ b n ds, digits? b cs = some (n, ds) →
    ∀ b g es, digits? b (skipSpace ds) = some (g, es) → tag? "R" (skipSpace es) = none) :
    reference? cs = none := by
  cases hnumber : digits? (2 ^ 32) cs with
  | none => simp [reference?, objectId?, hnumber]
  | some found =>
    cases hgeneration : digits? (2 ^ 16) (skipSpace found.2) with
    | none => simp [reference?, objectId?, hnumber, hgeneration]
    | some found' =>
      simp [reference?, objectId?, hnumber, hgeneration, h _ _ _ hnumber _ _ _ hgeneration]

theorem sign_of_isDigit {c : Char} (h : c.isDigit = true) (cs : List Char) :
    sign (c :: cs) = (false, c :: cs) := by
  unfold sign
  split
  · next heq => cases heq; exact absurd h (by decide)
  · next heq => cases heq; exact absurd h (by decide)
  · rfl

theorem real?_digits {ds rest : List Char} (hds : ∀ c ∈ ds, c.isDigit = true) (hrest : Ends rest)
    {cs : List Char} (hsign : (sign cs).2 = ds ++ rest) : real? cs = none := by
  simp only [real?, hsign, run_append hds hrest.not_isDigit]
  split
  · exact absurd (hrest _ rfl) (by decide)
  · rfl

theorem sign_toDigits (n : Nat) (rest : List Char) :
    sign (Nat.toDigits 10 n ++ rest) = (false, Nat.toDigits 10 n ++ rest) := by
  obtain ⟨c, cs, hcs, hc⟩ := exists_toDigits n
  rw [hcs, List.cons_append, sign_of_isDigit hc]

/-- A number below the bound for integers is read as itself. -/
theorem integer?_toDigits {n : Nat} (h : n < 2 ^ 63) {rest : List Char}
    (hrest : ∀ c ∈ rest.head?, c.isDigit = false) :
    integer? (Nat.toDigits 10 n ++ rest) = some ((n : Int), rest) := by
  simp only [integer?, sign_toDigits, run_append (fun _ => isDigit_of_mem_toDigits) hrest,
    natOf_toDigits]
  rw [if_neg]
  · rfl
  · simpa [Nat.toDigits_ne_nil] using h

/-- So is one with a sign. -/
theorem integer?_negSucc {n : Nat} (h : n < 2 ^ 63) {rest : List Char}
    (hrest : ∀ c ∈ rest.head?, c.isDigit = false) :
    integer? ('-' :: (Nat.toDigits 10 (n + 1) ++ rest)) = some (Int.negSucc n, rest) := by
  have hsign : sign ('-' :: (Nat.toDigits 10 (n + 1) ++ rest)) =
      (true, Nat.toDigits 10 (n + 1) ++ rest) := rfl
  simp only [integer?, hsign, run_append (fun _ => isDigit_of_mem_toDigits) hrest, natOf_toDigits]
  rw [if_neg]
  · rfl
  · simp [Nat.toDigits_ne_nil]
    omega

/-- An integer is read as itself. -/
theorem valueIn_int {n : Int} (h : (Object.int n).isLegible = true) {rest : List Char}
    (hrest : Apart rest) (fuel : Nat) :
    valueIn (fuel + 1) (written (.int n) ++ rest) = some (.int n, rest) := by
  simp only [Object.isLegible, Bool.and_eq_true, decide_eq_true_eq] at h
  have hdigit := hrest.ends.not_isDigit
  cases n with
  | ofNat n =>
    obtain ⟨c, cs, hcs, hc⟩ := exists_toDigits n
    have href : reference? (Nat.toDigits 10 n ++ rest) = none := by
      refine reference?_eq_none fun b m ds hd b' g es => ?_
      rw [eq_of_digits? (fun _ => isDigit_of_mem_toDigits) hdigit hd]
      exact hrest.no_number b' g es
    have hreal : real? (Nat.toDigits 10 n ++ rest) = none :=
      real?_digits (fun _ => isDigit_of_mem_toDigits) hrest.ends
        (congrArg Prod.snd (sign_toDigits n rest))
    have hint := integer?_toDigits (Int.ofNat_lt.1 h.2) hdigit
    rw [written_ofNat]
    rw [hcs, List.cons_append] at href hreal hint ⊢
    rw [valueIn_number (Or.inl hc), href, hreal, hint]
    rfl
  | negSucc n =>
    have href : reference? ('-' :: (Nat.toDigits 10 (n + 1) ++ rest)) = none := by
      refine reference?_eq_none fun b m ds hd => ?_
      rw [digits?_eq_none (not_isDigit_cons (by decide) _)] at hd
      cases hd
    have hsign : (sign ('-' :: (Nat.toDigits 10 (n + 1) ++ rest))).2 =
        Nat.toDigits 10 (n + 1) ++ rest := rfl
    have hreal := real?_digits (fun _ => isDigit_of_mem_toDigits) hrest.ends hsign
    have hlt : n < 2 ^ 63 := by omega
    have hint := integer?_negSucc hlt hdigit
    rw [written_negSucc, List.cons_append, valueIn_number (Or.inr (by decide)), href, hreal, hint]
    rfl

/-- A real number is read as itself. -/
theorem valueIn_real {bits : UInt32} (h : (Object.real bits).isLegible = true) {rest : List Char}
    (hrest : Apart rest) (fuel : Nat) :
    valueIn (fuel + 1) (written (.real bits) ++ rest) = some (.real bits, rest) := by
  simp only [Object.isLegible, decide_eq_true_eq] at h
  change valueIn (fuel + 1) ((binary32.text bits.toNat).toList ++ rest) = _
  generalize (binary32.text bits.toNat).toList = text at h
  have hreal := real?_append h hrest.ends.not_isDigit
  obtain ⟨c, cs, rfl, hc⟩ := exists_head_of_real? h
  have href : reference? (c :: cs ++ rest) = none := by
    refine reference?_eq_none fun b m ds hd b' g es hd' => ?_
    obtain ⟨whole, fraction, hsign, hwhole, -⟩ := exists_of_real? h
    unfold sign at hsign
    split at hsign
    · next heq =>
      cases heq
      rw [List.cons_append, digits?_eq_none (not_isDigit_cons (by decide) _)] at hd
      cases hd
    · next heq =>
      cases heq
      rw [List.cons_append, digits?_eq_none (not_isDigit_cons (by decide) _)] at hd
      cases hd
    · dsimp only at hsign
      rw [hsign, List.append_assoc, List.cons_append] at hd
      rw [eq_of_digits? hwhole (not_isDigit_point _) hd,
        skipSpace_of_not_isBlank (by decide) (by decide),
        digits?_eq_none (not_isDigit_point _)] at hd'
      cases hd'
  rw [List.cons_append] at href hreal ⊢
  rw [valueIn_number (hc.imp_right fun h => List.mem_append_left [']'] h), href, hreal]
  rfl

/-- A number and a generation are read with the blank after them. -/
theorem objectId?_written {r : Ref} (h : (Object.ref r).isLegible = true) {c : Char}
    (hblank : isBlank c = false) (hc : c ≠ '%') (rest : List Char) :
    objectId? (Nat.toDigits 10 r.number ++ ' ' :: (Nat.toDigits 10 r.generation ++
      ' ' :: c :: rest)) = some (r, c :: rest) := by
  simp only [Object.isLegible, Bool.and_eq_true, decide_eq_true_eq] at h
  have hend : ∀ cs, ∀ c ∈ (' ' :: cs).head?, c.isDigit = false := not_isDigit_cons (by decide)
  obtain ⟨d, ds, hds, hd⟩ := exists_toDigits r.generation
  have hspace : skipSpace (' ' :: (Nat.toDigits 10 r.generation ++ ' ' :: c :: rest)) =
      Nat.toDigits 10 r.generation ++ ' ' :: c :: rest := by
    rw [skipSpace_of_isBlank (by decide), hds, List.cons_append, skipSpace_of_isDigit hd]
  have hspace' : skipSpace (' ' :: c :: rest) = c :: rest := by
    rw [skipSpace_of_isBlank (by decide), skipSpace_of_not_isBlank hblank hc]
  simp only [objectId?, digits?_toDigits h.1 (hend _), Option.bind_eq_bind, Option.bind_some,
    hspace, digits?_toDigits h.2 (hend _), hspace']
  rfl

/-- A reference is read as itself. -/
theorem valueIn_ref {r : Ref} (h : (Object.ref r).isLegible = true) (rest : List Char)
    (fuel : Nat) : valueIn (fuel + 1) (written (.ref r) ++ rest) = some (.ref r, rest) := by
  have href : reference? (written (.ref r) ++ rest) = some (.ref r, rest) := by
    rw [written_ref, List.append_assoc, List.cons_append, List.append_assoc, List.cons_append,
      List.cons_append, List.nil_append, reference?,
      objectId?_written h (by decide) (by decide) rest]
    rfl
  obtain ⟨c, cs, hcs, hc⟩ := exists_toDigits r.number
  obtain ⟨ds, hds⟩ : ∃ ds, written (.ref r) ++ rest = c :: ds := by
    rw [written_ref, hcs]
    exact ⟨_, rfl⟩
  rw [hds] at href ⊢
  rw [valueIn_number (Or.inl hc), href]
  rfl

theorem valueIn_close (fuel : Nat) (rest : List Char) : valueIn fuel (']' :: rest) = none := by
  cases fuel with
  | zero => rfl
  | succ fuel =>
    have hdigit : ∀ c ∈ (']' :: rest).head?, c.isDigit = false := not_isDigit_cons (by decide) rest
    have href : reference? (']' :: rest) = none := by
      refine reference?_eq_none fun b n ds hd => ?_
      rw [digits?_eq_none hdigit] at hd
      cases hd
    have hends : Ends (']' :: rest) := by
      rintro c ⟨⟩
      decide
    have hsign : sign (']' :: rest) = (false, ']' :: rest) := rfl
    have hreal : real? (']' :: rest) = none :=
      real?_digits (List.forall_mem_nil _) hends (congrArg Prod.snd hsign)
    have hint : integer? (']' :: rest) = none := by
      simp [integer?, hsign, run_of_not_isDigit hdigit]
    rw [valueIn_number (Or.inr (by decide)), href, hreal, hint]
    rfl

/-! ## Arrays and dictionaries -/

theorem length_written_pos {o : Object} (h : o.isLegible = true) : 0 < (written o).length := by
  obtain ⟨c, cs, hcs, -⟩ := exists_begins h
  simp [hcs]

/-- The blank that sets a value apart is skipped. -/
theorem skipSpace_written {o : Object} (h : o.isLegible = true) (rest : List Char) :
    skipSpace ((if needsBlank o then [' '] else []) ++ written o ++ rest) =
      written o ++ rest := by
  obtain ⟨c, cs, hcs, hc⟩ := exists_begins h
  have hspace : skipSpace (written o ++ rest) = written o ++ rest := by
    rw [hcs, List.cons_append, skipSpace_of_not_isBlank hc.not_blank hc.ne_comment]
  split
  · rw [List.append_assoc, List.singleton_append, skipSpace_of_isBlank (by decide), hspace]
  · rw [List.nil_append, hspace]

theorem skipSpace_dropWhile (cs rest : List Char) :
    skipSpace (cs.dropWhile (· = ' ') ++ rest) = skipSpace (cs ++ rest) := by
  induction cs with
  | nil => rfl
  | cons c cs ih =>
    by_cases hc : c = ' '
    · rw [List.dropWhile_cons_of_pos (by simpa using hc), ih, hc, List.cons_append,
        skipSpace_of_isBlank (by decide)]
    · rw [List.dropWhile_cons_of_neg (by simpa using hc)]

theorem apart_items {items : List Object} (h : areLegible items = true) (rest : List Char) :
    Apart (writtenItems items ++ ']' :: rest) := by
  induction items with
  | nil => exact apart_of_delimiter (by decide) (by decide) rest
  | cons o items ih =>
    rw [areLegible, Bool.and_eq_true] at h
    rw [writtenItems, List.append_assoc]
    exact apart_written h.1 (ih h.2)

theorem apart_entries (entries : Dict) (rest : List Char) :
    Apart (writtenEntries entries ++ '>' :: '>' :: rest) := by
  cases entries with
  | nil => exact apart_of_delimiter (by decide) (by decide) _
  | cons e entries => exact apart_of_delimiter (by decide) (by decide) _

theorem skipSpace_entries (entries : Dict) (rest : List Char) :
    skipSpace (writtenEntries entries ++ '>' :: '>' :: rest) =
      writtenEntries entries ++ '>' :: '>' :: rest := by
  cases entries with
  | nil => exact skipSpace_of_not_isBlank (by decide) (by decide) _
  | cons e entries => exact skipSpace_of_not_isBlank (by decide) (by decide) _

theorem ends_written {o : Object} (h : o.isLegible = true) (rest : List Char) :
    Ends ((if needsBlank o then [' '] else []) ++ written o ++ rest) := by
  obtain ⟨c, cs, hcs, hc⟩ := exists_begins h
  split
  · rintro d ⟨⟩
    decide
  · next hneeds =>
    rw [List.nil_append, hcs]
    rintro d ⟨⟩
    simp [isRegular, hc.delimits (by simpa using hneeds)]

theorem Dict.set_of_get?_eq_none {name : String} {d : Dict} (h : d.get? name = none) (v : Object) :
    d.set name v = d ++ [(name, v)] := by
  induction d with
  | nil => rfl
  | cons e d ih =>
    obtain ⟨n, o⟩ := e
    rw [Dict.get?] at h
    split at h
    · cases h
    · next hn => rw [Dict.set, if_neg hn, ih h, List.cons_append]

theorem Dict.get?_append (name : String) (d e : Dict) :
    Dict.get? name (d ++ e) = (d.get? name).or (Dict.get? name e) := by
  induction d with
  | nil => rfl
  | cons head d ih =>
    obtain ⟨n, o⟩ := head
    rw [List.cons_append, Dict.get?, Dict.get?]
    split
    · rfl
    · exact ih

theorem valueIn_name (fuel : Nat) (cs : List Char) : valueIn (fuel + 1) ('/' :: cs) =
    some (.name (nameBody [] cs).1, (nameBody [] cs).2) := rfl

theorem valueIn_string (fuel : Nat) (cs : List Char) : valueIn (fuel + 1) ('(' :: cs) =
    (stringBody 0 [] cs).map fun s => (.string s.1 false, s.2) := rfl

theorem valueIn_hexadecimal (fuel : Nat) {cs : List Char} (h : cs.head? ≠ some '<') :
    valueIn (fuel + 1) ('<' :: cs) = (hexBody? cs).map fun s => (.string s.1 true, s.2) := by
  cases cs with
  | nil => rfl
  | cons c cs =>
    rw [valueIn.eq_def]
    dsimp only
    split <;> simp_all

theorem valueIn_array (fuel : Nat) (cs : List Char) :
    valueIn (fuel + 1) ('[' :: cs) = itemsIn fuel [] (skipSpace cs) := rfl

theorem valueIn_dict (fuel : Nat) (cs : List Char) :
    valueIn (fuel + 1) ('<' :: '<' :: cs) = entriesIn fuel [] (skipSpace cs) := rfl

theorem valueIn_of_entriesIn {entries : Dict} {fuel : Nat} {rest : List Char}
    (h : entriesIn fuel [] (writtenEntries entries ++ '>' :: '>' :: rest) =
      some (.dict entries, rest)) :
    valueIn (fuel + 1) (written (.dict entries) ++ rest) = some (.dict entries, rest) := by
  rw [written, List.cons_append, List.cons_append, List.cons_append, List.cons_append,
    List.append_assoc, valueIn_dict, List.cons_append, List.cons_append, List.nil_append,
    skipSpace_entries, h]

theorem itemsIn_cons {fuel : Nat} {item : Object} {cs rest : List Char}
    (h : valueIn fuel cs = some (item, rest)) (read : List Object) :
    itemsIn (fuel + 1) read cs = itemsIn fuel (item :: read) (skipSpace rest) := by
  rw [itemsIn.eq_def]
  simp only [h]

theorem entriesIn_cons {fuel : Nat} {name : String} {value : Object} {cs tail rest : List Char}
    (hname : nameBody [] cs = (name, tail))
    (h : valueIn fuel (skipSpace tail) = some (value, rest)) (read : Dict) :
    entriesIn (fuel + 1) read ('/' :: cs) =
      entriesIn fuel (read.set name value) (skipSpace rest) := by
  rw [entriesIn.eq_def]
  simp only [hname, h]

theorem head_hexadecimal {cs : List Char} (hcs : ∀ c ∈ cs, c.toNat < 256) (rest : List Char) :
    ((cs.flatMap fun c => hexPair c.toNat) ++ '>' :: rest).head? ≠ some '<' := by
  cases cs with
  | nil => simp
  | cons c cs =>
    obtain ⟨a, b, hpair, ha, -⟩ := hexDigit?_hexPair (hcs c List.mem_cons_self)
    rw [List.flatMap_cons, hpair]
    intro h
    obtain rfl : a = '<' := Option.some.inj h
    cases ha

theorem dropWhile_items {o : Object} (h : o.isLegible = true) (items : List Object) :
    (writtenItems (o :: items)).dropWhile (· = ' ') = written o ++ writtenItems items := by
  obtain ⟨c, cs, hcs, hc⟩ := exists_begins h
  have hne : c ≠ ' ' := by
    rintro rfl
    exact absurd hc.not_blank (by decide)
  rw [writtenItems]
  split <;> simp [hcs, hne]

/-- A name is read up to what ends it. -/
theorem nameBody_name {text : String} (h : areBytes text = true) {rest : List Char}
    (hrest : Ends rest) : ∃ cs, writtenName text ++ rest = '/' :: cs ∧
      nameBody [] cs = (text, rest) := by
  refine ⟨_, rfl, ?_⟩
  have hname := nameBody_written (lt_of_areBytes h) hrest []
  rwa [List.reverse_nil, List.nil_append, String.ofList_toList] at hname

mutual

/-- **A value is read as itself**, whatever stands after it and apart from it. -/
theorem valueIn_written (o : Object) (h : o.isLegible = true) {rest : List Char}
    (hrest : Apart rest) {fuel : Nat} (hfuel : (written o).length ≤ fuel) :
    valueIn fuel (written o ++ rest) = some (o, rest) := by
  obtain ⟨fuel, rfl⟩ : ∃ n, fuel = n + 1 :=
    Nat.exists_eq_succ_of_ne_zero (by have := length_written_pos h; omega)
  cases o with
  | null => rfl
  | bool b => cases b <;> rfl
  | int n => exact valueIn_int h hrest fuel
  | real bits => exact valueIn_real h hrest fuel
  | name text =>
    obtain ⟨cs, hcs, hname⟩ := nameBody_name h hrest.ends
    rw [written, hcs, valueIn_name, hname]
  | string text hexadecimal =>
    cases hexadecimal with
    | false =>
      have hbody := stringBody_written text.toList rest []
      rw [List.reverse_nil, List.nil_append, String.ofList_toList] at hbody
      rw [written, if_neg Bool.false_ne_true, writtenString, List.cons_append, List.cons_append,
        List.append_assoc, List.singleton_append, valueIn_string, hbody]
      rfl
    | true =>
      have hbody := hexBody?_written (lt_of_areBytes h) rest
      rw [String.ofList_toList] at hbody
      rw [written, if_pos rfl, List.cons_append, List.cons_append, List.append_assoc,
        List.singleton_append, valueIn_hexadecimal _ (head_hexadecimal (lt_of_areBytes h) rest),
        hbody]
      rfl
  | array items =>
    rw [written, List.cons_append, List.cons_append, List.append_assoc, List.singleton_append,
      valueIn_array, skipSpace_dropWhile, itemsIn_written items h [] rest, List.reverse_nil,
      List.nil_append]
    simp only [written, List.length_cons, List.length_append, List.length_nil] at hfuel
    omega
  | dict entries =>
    simp only [written, List.length_cons, List.length_append, List.length_nil] at hfuel
    have hlater : (writtenEntries entries).length < fuel := by omega
    exact valueIn_of_entriesIn (entriesIn_written entries h [] (fun _ _ => rfl) rest hlater)
  | stream entries content => cases h
  | ref r => exact valueIn_ref h rest fuel

theorem itemsIn_written (items : List Object) (h : areLegible items = true) (read : List Object)
    (rest : List Char) {fuel : Nat}
    (hfuel : ((writtenItems items).dropWhile (· = ' ')).length < fuel) :
    itemsIn fuel read (skipSpace (writtenItems items ++ ']' :: rest)) =
      some (.array (read.reverse ++ items), rest) := by
  obtain ⟨fuel, rfl⟩ : ∃ n, fuel = n + 1 := Nat.exists_eq_succ_of_ne_zero (by omega)
  cases items with
  | nil =>
    rw [writtenItems, List.nil_append, skipSpace_of_not_isBlank (by decide) (by decide), itemsIn,
      valueIn_close, List.append_nil]
  | cons o items =>
    rw [areLegible, Bool.and_eq_true] at h
    have hpos := length_written_pos h.1
    have hdrop := (List.dropWhile_sublist (· = ' ') (l := writtenItems items)).length_le
    rw [dropWhile_items h.1, List.length_append] at hfuel
    have hfirst : (written o).length ≤ fuel := by omega
    have hlater : ((writtenItems items).dropWhile (· = ' ')).length < fuel := by omega
    rw [writtenItems, List.append_assoc, skipSpace_written h.1,
      itemsIn_cons (valueIn_written o h.1 (apart_items h.2 rest) hfirst),
      itemsIn_written items h.2 _ _ hlater, List.reverse_cons, List.append_assoc,
      List.singleton_append]

theorem entriesIn_written (entries : List (String × Object)) (h : haveLegible entries = true)
    (read : Dict) (hread : ∀ name, Dict.has name entries = true → read.get? name = none)
    (rest : List Char) {fuel : Nat} (hfuel : (writtenEntries entries).length < fuel) :
    entriesIn fuel read (writtenEntries entries ++ '>' :: '>' :: rest) =
      some (.dict (read ++ entries), rest) := by
  obtain ⟨fuel, rfl⟩ : ∃ n, fuel = n + 1 := Nat.exists_eq_succ_of_ne_zero (by omega)
  cases entries with
  | nil => rw [writtenEntries, List.nil_append, entriesIn, List.append_nil]
  | cons e entries =>
    obtain ⟨name, o⟩ := e
    simp only [haveLegible, Bool.and_eq_true, Bool.not_eq_true'] at h
    obtain ⟨⟨⟨hname, hnew⟩, ho⟩, hentries⟩ := h
    have hpos := length_written_pos ho
    have hslash : 0 < (writtenName name).length := Nat.succ_pos _
    simp only [writtenEntries, List.length_append] at hfuel
    have hfirst : (written o).length ≤ fuel := by omega
    have hvalue := valueIn_written o ho (apart_entries entries rest) hfirst
    rw [← skipSpace_written ho] at hvalue
    obtain ⟨cs, hcs, hbody⟩ := nameBody_name hname (ends_written ho (writtenEntries entries ++
      '>' :: '>' :: rest))
    have htext : writtenEntries ((name, o) :: entries) ++ '>' :: '>' :: rest = '/' :: cs := by
      rw [← hcs, writtenEntries]
      simp only [List.append_assoc]
    have hset := hread name (by simp [Dict.has, Dict.get?])
    have hread : ∀ other, Dict.has other entries = true →
        Dict.get? other (read ++ [(name, o)]) = none := by
      intro other hother
      have hne : name ≠ other := by
        rintro rfl
        rw [hnew] at hother
        cases hother
      have hold := hread other (by rwa [Dict.has, Dict.get?, if_neg hne])
      rw [Dict.get?_append, hold, Dict.get?, if_neg hne]
      rfl
    rw [htext, entriesIn_cons hbody hvalue, skipSpace_entries, Dict.set_of_get?_eq_none hset,
      entriesIn_written entries hentries _ hread rest (by omega), List.append_assoc,
      List.singleton_append]

end

/-! ## Bytes of values -/

theorem lt_of_isDigit {c : Char} (h : c.isDigit = true) : c.toNat < 256 := by
  simp only [Char.isDigit, Bool.and_eq_true, decide_eq_true_eq] at h
  have hle : c.val.toNat ≤ 57 := UInt32.le_iff_toNat_le.1 h.2
  exact hle.trans_lt (by decide)

theorem lt_of_mem_hexPair (n : Nat) : ∀ c ∈ hexPair n, c.toNat < 256 := by
  have hdigit : ∀ d < 16,
      (if d < 10 then Char.ofNat (48 + d) else Char.ofNat (55 + d)).toNat < 256 := by decide
  simp only [hexPair, List.forall_mem_cons]
  exact ⟨hdigit _ (Nat.mod_lt _ (by decide)), hdigit _ (Nat.mod_lt _ (by decide)), by simp⟩

theorem lt_of_mem_writtenName {text : String} (h : areBytes text = true) :
    ∀ c ∈ writtenName text, c.toNat < 256 := by
  refine List.forall_mem_cons.2 ⟨by decide, fun c hc => ?_⟩
  obtain ⟨d, hd, hc⟩ := List.mem_flatMap.1 hc
  split at hc
  · rw [List.mem_singleton.1 hc]
    exact lt_of_areBytes h d hd
  · rcases List.mem_cons.1 hc with rfl | hc
    · decide
    · exact lt_of_mem_hexPair _ c hc

theorem lt_of_mem_writtenString {text : String} (h : areBytes text = true) :
    ∀ c ∈ writtenString text, c.toNat < 256 := by
  refine List.forall_mem_append.2 ⟨List.forall_mem_cons.2 ⟨by decide, fun c hc => ?_⟩, by simp⟩
  obtain ⟨d, hd, hc⟩ := List.mem_flatMap.1 hc
  have hd := lt_of_areBytes h d hd
  split at hc
  · rcases List.mem_pair.1 hc with rfl | rfl <;> decide
  · split at hc
    · rcases List.mem_pair.1 hc with rfl | rfl
      · decide
      · exact hd
    · rwa [List.mem_singleton.1 hc]

theorem lt_of_mem_real {cs : List Char} {o : Object} (h : real? cs = some (o, [])) :
    ∀ c ∈ cs, c.toNat < 256 := by
  obtain ⟨whole, fraction, hsign, hwhole, hfraction⟩ := exists_of_real? h
  have hbody : ∀ c ∈ whole ++ '.' :: fraction, c.toNat < 256 :=
    List.forall_mem_append.2 ⟨fun c hc => lt_of_isDigit (hwhole c hc),
      List.forall_mem_cons.2 ⟨by decide, fun c hc => lt_of_isDigit (hfraction c hc)⟩⟩
  rw [← hsign] at hbody
  unfold sign at hbody
  split at hbody
  · exact List.forall_mem_cons.2 ⟨by decide, hbody⟩
  · exact List.forall_mem_cons.2 ⟨by decide, hbody⟩
  · exact hbody

theorem lt_of_mem_toDigits (n : Nat) : ∀ c ∈ Nat.toDigits 10 n, c.toNat < 256 :=
  fun _ hc => lt_of_isDigit (isDigit_of_mem_toDigits hc)

theorem lt_of_mem_blank (b : Bool) : ∀ c ∈ if b then [' '] else [], c.toNat < 256 := by
  cases b <;> simp

mutual

/-- Each character of a value is a byte. -/
theorem lt_of_mem_written (o : Object) (h : o.isLegible = true) :
    ∀ c ∈ written o, c.toNat < 256 := by
  cases o with
  | null => simp [written]
  | bool b => cases b <;> simp [written]
  | int n =>
    cases n with
    | ofNat n => rw [written_ofNat]; exact lt_of_mem_toDigits n
    | negSucc n =>
      rw [written_negSucc]
      exact List.forall_mem_cons.2 ⟨by decide, lt_of_mem_toDigits _⟩
  | real bits =>
    simp only [Object.isLegible, decide_eq_true_eq] at h
    exact lt_of_mem_real h
  | name text => exact lt_of_mem_writtenName h
  | string text hexadecimal =>
    cases hexadecimal with
    | false => exact lt_of_mem_writtenString h
    | true =>
      refine List.forall_mem_append.2 ⟨List.forall_mem_cons.2 ⟨by decide, fun c hc => ?_⟩, by simp⟩
      obtain ⟨d, -, hc⟩ := List.mem_flatMap.1 hc
      exact lt_of_mem_hexPair _ c hc
  | array items =>
    refine List.forall_mem_append.2 ⟨List.forall_mem_cons.2 ⟨by decide, fun c hc => ?_⟩, by simp⟩
    exact lt_of_mem_writtenItems items h c ((List.dropWhile_sublist _).subset hc)
  | dict entries =>
    refine List.forall_mem_append.2 ⟨?_, by simp⟩
    exact List.forall_mem_cons.2 ⟨by decide, List.forall_mem_cons.2
      ⟨by decide, lt_of_mem_writtenEntries entries h⟩⟩
  | stream entries content => cases h
  | ref r =>
    rw [written_ref]
    refine List.forall_mem_append.2 ⟨lt_of_mem_toDigits _, List.forall_mem_cons.2 ⟨by decide, ?_⟩⟩
    exact List.forall_mem_append.2 ⟨lt_of_mem_toDigits _, by simp⟩

theorem lt_of_mem_writtenItems (items : List Object) (h : areLegible items = true) :
    ∀ c ∈ writtenItems items, c.toNat < 256 := by
  cases items with
  | nil => simp [writtenItems]
  | cons o items =>
    rw [areLegible, Bool.and_eq_true] at h
    rw [writtenItems, List.forall_mem_append, List.forall_mem_append]
    exact ⟨⟨lt_of_mem_blank _, lt_of_mem_written o h.1⟩, lt_of_mem_writtenItems items h.2⟩

theorem lt_of_mem_writtenEntries (entries : List (String × Object))
    (h : haveLegible entries = true) : ∀ c ∈ writtenEntries entries, c.toNat < 256 := by
  cases entries with
  | nil => simp [writtenEntries]
  | cons e entries =>
    obtain ⟨name, o⟩ := e
    simp only [haveLegible, Bool.and_eq_true] at h
    obtain ⟨⟨⟨hname, -⟩, ho⟩, hentries⟩ := h
    rw [writtenEntries, List.forall_mem_append, List.forall_mem_append, List.forall_mem_append]
    exact ⟨⟨⟨lt_of_mem_writtenName hname, lt_of_mem_blank _⟩, lt_of_mem_written o ho⟩,
      lt_of_mem_writtenEntries entries hentries⟩

end

/-! ## Values in a file -/

/-- A value is read with the text that comes after it. -/
theorem value?_written {o : Object} (h : o.isLegible = true) {rest : List Char}
    (hrest : Apart rest) : value? (written o ++ rest) = some (o, rest) :=
  valueIn_written o h hrest (by rw [List.length_append]; omega)

/-- A dictionary is read whatever comes after it. -/
theorem value?_dict {entries : Dict} (h : haveLegible entries = true) (rest : List Char) :
    value? (written (.dict entries) ++ rest) = some (.dict entries, rest) := by
  refine valueIn_of_entriesIn (entriesIn_written entries h [] (fun _ _ => rfl) rest ?_)
  simp only [written, List.length_cons, List.length_append, List.length_nil]
  omega

end Waybill.Pdf
