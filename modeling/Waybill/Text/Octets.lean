/-
  Bytes as text with one character a byte.

  * `ofBytes` gives each byte the character of its number, `toBytes` goes back;
  * `shown` reads such a text as UTF-8, where it is any.

  Statements: `toBytes_ofBytes` and `ofBytes_toBytes` (no byte is lost, and no character that is
  one), `lt_of_mem_ofBytes`, `length_ofBytes`.
-/
import Waybill.Text.Utf8

namespace Waybill.Text.Octets

/-- The character of each byte. -/
def ofBytes (bytes : List UInt8) : List Char :=
  bytes.map fun b => Char.ofNat b.toNat

/-- The byte of each character. -/
def toBytes (cs : List Char) : List UInt8 :=
  cs.map fun c => UInt8.ofNat c.toNat

theorem toNat_ofNat_byte (b : UInt8) : (Char.ofNat b.toNat).toNat = b.toNat := by
  have hb := b.toNat_lt
  have hv : b.toNat.isValidChar := .inl (by omega)
  rw [Char.ofNat, dif_pos hv]
  rfl

theorem toBytes_ofBytes (bytes : List UInt8) : toBytes (ofBytes bytes) = bytes := by
  simp only [toBytes, ofBytes, List.map_map]
  conv => rhs; rw [← List.map_id bytes]
  refine List.map_congr_left fun b _ => ?_
  simp [toNat_ofNat_byte]

/-- No character is lost if each is a byte. -/
theorem ofBytes_toBytes {cs : List Char} (h : ∀ c ∈ cs, c.toNat < 256) :
    ofBytes (toBytes cs) = cs := by
  simp only [toBytes, ofBytes, List.map_map]
  conv => rhs; rw [← List.map_id cs]
  refine List.map_congr_left fun c hc => ?_
  have hmod : (UInt8.ofNat c.toNat).toNat = c.toNat := by
    rw [UInt8.toNat_ofNat', Nat.mod_eq_of_lt (h c hc)]
  rw [Function.comp_apply, hmod, Char.ofNat_toNat, id]

theorem length_ofBytes (bytes : List UInt8) : (ofBytes bytes).length = bytes.length := by
  simp [ofBytes]

theorem lt_of_mem_ofBytes (bytes : List UInt8) : ∀ c ∈ ofBytes bytes, c.toNat < 256 := by
  intro c hc
  obtain ⟨b, -, rfl⟩ := List.mem_map.1 hc
  rw [toNat_ofNat_byte]
  exact b.toNat_lt

/-- The text that the bytes are in UTF-8. -/
def shown (s : String) : String :=
  String.ofList (decodeChars (toBytes s.toList))

end Waybill.Text.Octets
