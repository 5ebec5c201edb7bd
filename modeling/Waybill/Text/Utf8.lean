/-
  Bytes read as UTF-8 text.

  * `decode?` reads bytes that are well formed, and nothing else;
  * `decodeLossy` reads any bytes: each longest start of a character that is cut
    short or continued wrongly becomes one replacement character.

  Statement: `length_step_le`, which bounds how much one step leaves.
-/
import Waybill.Instances

namespace Waybill.Text

/-- The character shown for bytes that are no text. -/
def replacement : Char := '\uFFFD'

/-! ## One character -/

/-- What a first byte announces: the number of continuation bytes, the bounds of the first
    of them, and the bits the first byte contributes. -/
def lead (b : UInt8) : Option (Nat × UInt8 × UInt8 × Nat) :=
  if b < 0x80 then some (0, 0x80, 0xBF, b.toNat)
  else if 0xC2 ≤ b ∧ b ≤ 0xDF then some (1, 0x80, 0xBF, b.toNat - 0xC0)
  else if b = 0xE0 then some (2, 0xA0, 0xBF, 0)
  else if b = 0xED then some (2, 0x80, 0x9F, 0xD)
  else if 0xE1 ≤ b ∧ b ≤ 0xEF then some (2, 0x80, 0xBF, b.toNat - 0xE0)
  else if b = 0xF0 then some (3, 0x90, 0xBF, 0)
  else if 0xF1 ≤ b ∧ b ≤ 0xF3 then some (3, 0x80, 0xBF, b.toNat - 0xF0)
  else if b = 0xF4 then some (3, 0x80, 0x8F, 4)
  else none

/-- The continuation bytes of a character: its code so far goes in, and the finished code or
    `none` comes out with the bytes not used. -/
def continuation : Nat → UInt8 → UInt8 → Nat → List UInt8 → Option Nat × List UInt8
  | 0, _, _, code, bytes => (some code, bytes)
  | _ + 1, _, _, _, [] => (none, [])
  | n + 1, lo, hi, code, b :: bytes =>
    if lo ≤ b ∧ b ≤ hi then continuation n 0x80 0xBF (code * 64 + (b.toNat - 0x80)) bytes
    else (none, b :: bytes)

theorem length_continuation_le (n : Nat) (lo hi : UInt8) (code : Nat) (bytes : List UInt8) :
    (continuation n lo hi code bytes).2.length ≤ bytes.length := by
  induction n generalizing lo hi code bytes with
  | zero => simp [continuation]
  | succ n ih =>
    cases bytes with
    | nil => simp [continuation]
    | cons b bytes =>
      unfold continuation
      split
      · exact Nat.le_succ_of_le (ih _ _ _ _)
      · simp

/-- One character off the front: the character, if the bytes hold one, and the rest. -/
def step (b : UInt8) (bytes : List UInt8) : Option Char × List UInt8 :=
  match lead b with
  | none => (none, bytes)
  | some (n, lo, hi, code) =>
    let found := continuation n lo hi code bytes
    (found.1.map Char.ofNat, found.2)

theorem length_step_le (b : UInt8) (bytes : List UInt8) :
    (step b bytes).2.length ≤ bytes.length := by
  unfold step
  split
  · simp
  · exact length_continuation_le _ _ _ _ _

/-! ## Whole texts -/

/-- The characters of any bytes, replacements included. -/
def decodeChars : List UInt8 → List Char
  | [] => []
  | b :: bytes =>
    (step b bytes).1.getD replacement :: decodeChars (step b bytes).2
termination_by bytes => bytes.length
decreasing_by
  have := length_step_le b bytes
  simp only [List.length_cons]; omega

/-- Any bytes as text. -/
def decodeLossy (bytes : ByteArray) : String :=
  String.ofList (decodeChars bytes.toList)

/-- Well-formed bytes as text. -/
def decode? (bytes : ByteArray) : Option String :=
  String.fromUTF8? bytes

/-- The bytes of a text. -/
def encode (s : String) : ByteArray :=
  s.toUTF8

end Waybill.Text
