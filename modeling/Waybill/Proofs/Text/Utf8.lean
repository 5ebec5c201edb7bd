/-
  The bytes of a text are read as the text.

  A character is one to four bytes: the first says how many follow and what the next one may be,
  so that no character is written in more bytes than it needs.

  Statements: `decodeChars_utf8EncodeChar` (one character is read), `decodeChars_toByteArray`.
-/
import Waybill.Text.Utf8

namespace Waybill.Text

/-! ## First bytes -/

theorem lead_one : ∀ n < 128, lead (UInt8.ofNat n) = some (0, 0x80, 0xBF, n) := by
  decide

theorem lead_two : ∀ n < 30, lead (UInt8.ofNat (n + 2 + 192)) = some (1, 0x80, 0xBF, n + 2) := by
  decide

theorem lead_three : ∀ n < 16, lead (UInt8.ofNat (n + 224)) =
    some (2, if n = 0 then 0xA0 else 0x80, if n = 13 then 0x9F else 0xBF, n) := by
  decide

theorem lead_four : ∀ n < 5, lead (UInt8.ofNat (n + 240)) =
    some (3, if n = 0 then 0x90 else 0x80, if n = 4 then 0x8F else 0xBF, n) := by
  decide

/-! ## Characters -/

/-- One continuation byte adds six bits to the code. -/
theorem continuation_succ (k code : Nat) {lo hi : UInt8} {n : Nat} (hn : n < 64)
    (hlo : lo.toNat ≤ n + 128) (hhi : n + 128 ≤ hi.toNat) (bytes : List UInt8) :
    continuation (k + 1) lo hi code (UInt8.ofNat (n + 128) :: bytes) =
      continuation k 0x80 0xBF (code * 64 + n) bytes := by
  have hbyte : (UInt8.ofNat (n + 128)).toNat = n + 128 := by
    rw [UInt8.toNat_ofNat', Nat.mod_eq_of_lt (by omega)]
  have hbounds : lo ≤ UInt8.ofNat (n + 128) ∧ UInt8.ofNat (n + 128) ≤ hi := by
    rw [UInt8.le_iff_toNat_le, UInt8.le_iff_toNat_le, hbyte]
    exact ⟨hlo, hhi⟩
  rw [continuation, if_pos hbounds, hbyte, Nat.add_sub_cancel]

theorem decodeChars_of_step {b : UInt8} {bytes rest : List UInt8} {c : Char}
    (h : step b bytes = (some c, rest)) :
    decodeChars (b :: bytes) = c :: decodeChars rest := by
  rw [decodeChars, h]
  rfl

/-- The bytes of one character are read as the character. -/
theorem decodeChars_utf8EncodeChar (c : Char) (rest : List UInt8) :
    decodeChars (String.utf8EncodeChar c ++ rest) = c :: decodeChars rest := by
  have hc : Char.ofNat c.val.toNat = c := Char.ofNat_toNat c
  have hvalid : c.val.toNat < 0xD800 ∨ 0xDFFF < c.val.toNat ∧ c.val.toNat < 0x110000 := c.valid
  unfold String.utf8EncodeChar
  generalize c.val.toNat = v at hc hvalid
  dsimp only
  split
  · simp only [List.cons_append, List.nil_append]
    refine decodeChars_of_step ?_
    rw [step, lead_one v (by omega)]
    simp only [continuation, Option.map_some, hc]
  split
  · simp only [List.cons_append, List.nil_append]
    refine decodeChars_of_step ?_
    obtain ⟨n, hn⟩ := Nat.exists_eq_add_of_le' (show 2 ≤ v / 64 % 32 by omega)
    rw [step, hn, lead_two n (by omega)]
    dsimp only
    rw [continuation_succ _ _ (by omega) (by simp) (by simp; omega), continuation]
    simp only [Option.map_some]
    rw [show (n + 2) * 64 + v % 64 = v by omega, hc]
  split
  · simp only [List.cons_append, List.nil_append]
    refine decodeChars_of_step ?_
    rw [step, lead_three (v / 4096 % 16) (by omega)]
    dsimp only
    rw [continuation_succ _ _ (by omega) (by split <;> simp; omega)
      (by split <;> simp <;> omega), continuation_succ _ _ (by omega) (by simp) (by simp; omega),
      continuation]
    simp only [Option.map_some]
    rw [show (v / 4096 % 16 * 64 + v / 64 % 64) * 64 + v % 64 = v by omega, hc]
  · simp only [List.cons_append, List.nil_append]
    refine decodeChars_of_step ?_
    rw [step, lead_four (v / 262144 % 8) (by omega)]
    dsimp only
    rw [continuation_succ _ _ (by omega) (by split <;> simp; omega)
      (by split <;> simp <;> omega), continuation_succ _ _ (by omega) (by simp) (by simp; omega),
      continuation_succ _ _ (by omega) (by simp) (by simp; omega), continuation]
    simp only [Option.map_some]
    rw [show ((v / 262144 % 8 * 64 + v / 4096 % 64) * 64 + v / 64 % 64) * 64 + v % 64 = v by omega,
      hc]

/-! ## Texts -/

theorem decodeChars_flatMap (cs : List Char) :
    decodeChars (cs.flatMap String.utf8EncodeChar) = cs := by
  induction cs with
  | nil => simp [decodeChars]
  | cons c cs ih => rw [List.flatMap_cons, decodeChars_utf8EncodeChar, ih]

/-- **The bytes of a text are read as the text.** -/
theorem decodeChars_toByteArray (s : String) :
    decodeChars s.toByteArray.data.toList = s.toList := by
  have hbytes : s.toByteArray = (s.toList.flatMap String.utf8EncodeChar).toByteArray := by
    rw [← String.ofList_toList (s := s), String.toByteArray_ofList, List.utf8Encode,
      String.toList_ofList]
  rw [hbytes, List.toList_data_toByteArray, decodeChars_flatMap]

end Waybill.Text
