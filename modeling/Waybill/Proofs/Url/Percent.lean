/-
  Percent encoding, read back.

  What is written is read back when the percent sign is one of the characters that are written as
  bytes.  When the dot is none of them, no dot is written as a byte, so that a text is not taken for
  a dot segment unless it is one.

  Statements: `decode_encode` (what is written is read back), `mem_encode` (the characters of an
  encoded text), `isHere_encode` and `isAbove_encode` (the texts that are encoded as dot segments).
-/
import Mathlib
import Waybill.Url.Basic

namespace Waybill.Url.Percent

/-! ## Bytes -/

theorem hexDigit?_hexDigit {n : Nat} (h : n < 16) : Json.hexDigit? (hexDigit n) = some n := by
  have hall : ∀ m : Fin 16, Json.hexDigit? (hexDigit m.val) = some m.val := by decide
  exact hall ⟨n, h⟩

theorem decode_encodedByte (b : UInt8) (rest : List Char) :
    decode (encodedByte b ++ rest) = b :: decode rest := by
  have hb : b.toNat < 256 := b.toNat_lt
  have hsum : b.toNat / 16 * 16 + b.toNat % 16 = b.toNat := by omega
  have hhigh := hexDigit?_hexDigit (n := b.toNat / 16) (by omega)
  have hlow := hexDigit?_hexDigit (n := b.toNat % 16) (by omega)
  simp only [encodedByte, List.cons_append, List.nil_append, decode, hhigh, hlow, hsum,
    UInt8.ofNat_toNat]

theorem decode_encodedBytes (bytes : List UInt8) (rest : List Char) :
    decode (bytes.flatMap encodedByte ++ rest) = bytes ++ decode rest := by
  induction bytes with
  | nil => rfl
  | cons b bytes ih =>
    rw [List.flatMap_cons, List.append_assoc, decode_encodedByte, ih, List.cons_append]

theorem decode_cons_of_ne {c : Char} (h : c ≠ '%') (rest : List Char) :
    decode (c :: rest) = String.utf8EncodeChar c ++ decode rest := by
  rw [decode]
  rintro a b tail rfl
  exact fun _ => h rfl

theorem exists_utf8 (c : Char) : ∃ b bytes, String.utf8EncodeChar c = b :: bytes := by
  cases hbytes : String.utf8EncodeChar c with
  | nil =>
    have hsize := c.utf8Size_pos
    rw [← String.length_utf8EncodeChar, hbytes] at hsize
    cases hsize
  | cons b bytes => exact ⟨b, bytes, rfl⟩

/-! ## Texts -/

section
variable {escapes : Char → Bool} (hpercent : escapes '%' = true)
include hpercent

/-- **What is written is read back as the bytes of the text.** -/
theorem decode_encode (cs : List Char) :
    decode (encode escapes cs) = cs.flatMap String.utf8EncodeChar := by
  induction cs with
  | nil => rfl
  | cons c cs ih =>
    have hstep : encode escapes (c :: cs) = encodedChar escapes c ++ encode escapes cs :=
      List.flatMap_cons
    rw [hstep, List.flatMap_cons, ← ih, encodedChar]
    split
    · exact decode_encodedBytes _ _
    · next hc =>
      refine decode_cons_of_ne ?_ _
      rintro rfl
      exact hc hpercent

theorem toByteArray_decode_encode (s : String) :
    (decode (encode escapes s.toList)).toByteArray = s.toUTF8 := by
  rw [decode_encode hpercent]
  exact String.utf8Encode_toList

end

/-! ## Characters -/

/-- An encoded text has the characters that need no encoding, percent signs and digits. -/
theorem mem_encode {escapes : Char → Bool} {c : Char} {cs : List Char}
    (h : c ∈ encode escapes cs) :
    (c ∈ cs ∧ escapes c = false) ∨ c = '%' ∨ ∃ n < 16, c = hexDigit n := by
  obtain ⟨d, hd, hc⟩ := List.mem_flatMap.1 h
  unfold encodedChar at hc
  split at hc
  · obtain ⟨b, -, hb⟩ := List.mem_flatMap.1 hc
    have hlt : b.toNat < 256 := b.toNat_lt
    simp only [encodedByte, List.mem_cons, List.not_mem_nil, or_false] at hb
    rcases hb with rfl | rfl | rfl
    · exact Or.inr (Or.inl rfl)
    · exact Or.inr (Or.inr ⟨_, by omega, rfl⟩)
    · exact Or.inr (Or.inr ⟨_, by omega, rfl⟩)
  · next hescapes =>
    obtain rfl := List.mem_singleton.1 hc
    exact Or.inl ⟨hd, by simpa using hescapes⟩

/-- A character of the class is not in an encoded text, unless it is used to write bytes. -/
theorem not_mem_encode {escapes : Char → Bool} {c : Char} (h : escapes c = true) (hp : c ≠ '%')
    (hdigit : ∀ n < 16, c ≠ hexDigit n) (cs : List Char) : c ∉ encode escapes cs := by
  intro hmem
  rcases mem_encode hmem with ⟨-, hescapes⟩ | rfl | ⟨n, hn, hc⟩
  · simp [h] at hescapes
  · exact hp rfl
  · exact hdigit n hn hc

/-! ## Dot segments -/

/-- Only the dot is written with the byte 2E. -/
theorem eq_dot_of_utf8 {c : Char} {bytes : List UInt8}
    (h : String.utf8EncodeChar c = 0x2E :: bytes) : c = '.' := by
  have hnat {n : Nat} (hn : UInt8.ofNat n = 0x2E) : n % 256 = 46 := by
    simpa using congrArg UInt8.toNat hn
  unfold String.utf8EncodeChar at h
  dsimp only at h
  split at h
  · have hbyte := hnat (List.cons.inj h).1
    refine Char.ext (UInt32.toNat_inj.1 ?_)
    change c.val.toNat = 46
    omega
  · -- the first of several bytes is a greater one
    split at h
    · have hbyte := hnat (List.cons.inj h).1
      omega
    · split at h
      · have hbyte := hnat (List.cons.inj h).1
        omega
      · have hbyte := hnat (List.cons.inj h).1
        omega

/-- Lower case makes only lower case letters of other characters. -/
theorem eq_of_toLower {c d : Char} (hd : d.isLower = false) (h : c.toLower = d) : c = d := by
  unfold Char.toLower at h
  split at h
  · next hc =>
    have hlow : 65 ≤ c.toNat := UInt32.le_iff_toNat_le.1 hc.1
    have hhigh : c.toNat ≤ 90 := UInt32.le_iff_toNat_le.1 hc.2
    subst h
    exfalso
    simp [Char.isLower, UInt32.le_iff_toNat_le, UInt32.toNat_add] at hd
    omega
  · exact h

theorem toLower_hexDigit_inj {n m : Nat} (hn : n < 16) (hm : m < 16)
    (h : (hexDigit n).toLower = (hexDigit m).toLower) : n = m := by
  have hall : ∀ n m : Fin 16,
      (hexDigit n.val).toLower = (hexDigit m.val).toLower → n = m := by decide
  exact congrArg Fin.val (hall ⟨n, hn⟩ ⟨m, hm⟩ h)

theorem encode_cons (escapes : Char → Bool) (c : Char) (cs : List Char) :
    encode escapes (c :: cs) = encodedChar escapes c ++ encode escapes cs :=
  List.flatMap_cons

/-- What stands for a character starts with a percent sign, unless it is the character. -/
theorem encodedChar_cases (escapes : Char → Bool) (c : Char) :
    (escapes c = true ∧ ∃ b bytes rest, String.utf8EncodeChar c = b :: bytes ∧
      encodedChar escapes c = encodedByte b ++ rest) ∨
    (escapes c = false ∧ encodedChar escapes c = [c]) := by
  unfold encodedChar
  split
  · next hc =>
    obtain ⟨b, bytes, hbytes⟩ := exists_utf8 c
    exact Or.inl ⟨hc, b, bytes, _, hbytes, by rw [hbytes, List.flatMap_cons]⟩
  · next hc => exact Or.inr ⟨by simpa using hc, rfl⟩

section
variable {escapes : Char → Bool} (hpercent : escapes '%' = true) (hdot : escapes '.' = false)

include hpercent hdot in
/-- No dot is written as a byte. -/
theorem no_dot_byte_at_front (cs : List Char) :
    ¬ ['%', '2', 'e'] <+: (encode escapes cs).map Char.toLower := by
  cases cs with
  | nil => simp [encode]
  | cons c cs =>
    rw [encode_cons]
    rcases encodedChar_cases escapes c with ⟨hc, b, bytes, rest, hbytes, he⟩ | ⟨hc, he⟩
    · rw [he]
      simp only [encodedByte, List.map_append, List.map_cons, List.cons_append,
        List.cons_prefix_cons]
      rintro ⟨-, htwo, he, -⟩
      have hb : b.toNat < 256 := b.toNat_lt
      have hhigh : b.toNat / 16 = 2 := toLower_hexDigit_inj (by omega) (by decide) htwo.symm
      have hlow : b.toNat % 16 = 14 := toLower_hexDigit_inj (by omega) (by decide) he.symm
      obtain rfl : b = 0x2E := UInt8.toNat_inj.1 (show b.toNat = 46 by omega)
      rw [eq_dot_of_utf8 hbytes, hdot] at hc
      cases hc
    · rw [he]
      simp only [List.map_cons, List.cons_append, List.cons_prefix_cons]
      rintro ⟨hlower, -⟩
      rw [eq_of_toLower (by decide) hlower.symm, hpercent] at hc
      cases hc

/-- A dot in front of an encoded text is one in front of the text. -/
theorem exists_of_map_encode {cs w : List Char}
    (h : (encode escapes cs).map Char.toLower = '.' :: w) :
    ∃ ds, cs = '.' :: ds ∧ (encode escapes ds).map Char.toLower = w := by
  cases cs with
  | nil => cases h
  | cons c cs =>
    rw [encode_cons] at h
    rcases encodedChar_cases escapes c with ⟨-, b, bytes, rest, -, he⟩ | ⟨-, he⟩
    · rw [he] at h
      cases (List.cons.inj h).1
    · rw [he] at h
      obtain ⟨hlower, hw⟩ := List.cons.inj h
      exact ⟨cs, by rw [eq_of_toLower (by decide) hlower], hw⟩

theorem isHere_iff (segment : List Char) : isHere segment ↔
    segment.map Char.toLower = ['.'] ∨ segment.map Char.toLower = ['%', '2', 'e'] := by
  simp [isHere, ← String.toList_inj]

theorem isAbove_iff (segment : List Char) : isAbove segment ↔
    segment.map Char.toLower = ['.', '.'] ∨ segment.map Char.toLower = ['%', '2', 'e', '.'] ∨
    segment.map Char.toLower = ['.', '%', '2', 'e'] ∨
    segment.map Char.toLower = ['%', '2', 'e', '%', '2', 'e'] := by
  simp [isAbove, ← String.toList_inj]

theorem eq_nil_of_map_encode {cs : List Char} (h : (encode escapes cs).map Char.toLower = []) :
    cs = [] :=
  (encode_nil_iff escapes cs).1 (List.map_eq_nil_iff.1 h)

include hdot in
theorem encode_dots (n : Nat) :
    encode escapes (List.replicate n '.') = List.replicate n '.' := by
  have he : encodedChar escapes '.' = ['.'] := by simp [encodedChar, hdot]
  simp [encode, List.flatMap_replicate, he]

include hpercent hdot

/-- Only a single dot is encoded as the segment for the place itself. -/
theorem isHere_encode {cs : List Char} : isHere (encode escapes cs) ↔ cs = ['.'] := by
  rw [isHere_iff]
  constructor
  · rintro (h | h)
    · obtain ⟨ds, rfl, hds⟩ := exists_of_map_encode h
      rw [eq_nil_of_map_encode hds]
    · exact absurd (h ▸ List.prefix_rfl) (no_dot_byte_at_front hpercent hdot cs)
  · rintro rfl
    exact Or.inl (congrArg (List.map Char.toLower) (encode_dots hdot 1))

/-- Only two dots are encoded as a segment for the place above. -/
theorem isAbove_encode {cs : List Char} : isAbove (encode escapes cs) ↔ cs = ['.', '.'] := by
  have hbyte := no_dot_byte_at_front hpercent hdot
  rw [isAbove_iff]
  constructor
  · rintro (h | h | h | h)
    · obtain ⟨ds, rfl, hds⟩ := exists_of_map_encode h
      obtain ⟨es, rfl, hes⟩ := exists_of_map_encode hds
      rw [eq_nil_of_map_encode hes]
    · exact absurd ⟨['.'], h.symm⟩ (hbyte cs)
    · obtain ⟨ds, rfl, hds⟩ := exists_of_map_encode h
      exact absurd (hds ▸ List.prefix_rfl) (hbyte ds)
    · exact absurd ⟨['%', '2', 'e'], h.symm⟩ (hbyte cs)
  · rintro rfl
    exact Or.inl (congrArg (List.map Char.toLower) (encode_dots hdot 2))

end

end Waybill.Url.Percent
