/-
  Percent encoding: characters that a part of a URL must not hold, written as the bytes they have.

  * `encode` writes the characters of a class as bytes, each a percent sign and two digits;
  * `decode` reads such bytes;
  * `isControl`, `inFragment`, `inQuery`, `inPath`, `inSegment`, `inUser` and `inForm` are the
    classes of characters to be written so, by the part of the URL.

  Statements: `encode_append`, and `encode_nil_iff` (nothing is written as nothing only).
-/
import Waybill.Json.Parser

namespace Waybill.Url.Percent

/-! ## Encoding -/

/-- A hexadecimal digit in upper case. -/
def hexDigit (n : Nat) : Char :=
  if n < 10 then Char.ofNat (48 + n) else Char.ofNat (55 + n)

/-- A byte as a percent sign and two digits. -/
def encodedByte (b : UInt8) : List Char :=
  ['%', hexDigit (b.toNat / 16), hexDigit (b.toNat % 16)]

/-- A character as it is, or as its bytes when it is of the class. -/
def encodedChar (escapes : Char → Bool) (c : Char) : List Char :=
  if escapes c then (String.utf8EncodeChar c).flatMap encodedByte else [c]

/-- A text with the characters of the class as bytes. -/
def encode (escapes : Char → Bool) (cs : List Char) : List Char :=
  cs.flatMap (encodedChar escapes)

theorem encode_append (escapes : Char → Bool) (s t : List Char) :
    encode escapes (s ++ t) = encode escapes s ++ encode escapes t := by
  simp [encode]

theorem encodedChar_ne_nil (escapes : Char → Bool) (c : Char) : encodedChar escapes c ≠ [] := by
  unfold encodedChar
  split
  · intro h
    have hs : (String.utf8EncodeChar c).length = 0 := by
      cases hc : String.utf8EncodeChar c with
      | nil => rfl
      | cons b bs => rw [hc] at h; simp [encodedByte] at h
    have := Char.utf8Size_pos c
    rw [String.length_utf8EncodeChar] at hs
    omega
  · simp

theorem encode_nil_iff (escapes : Char → Bool) (cs : List Char) :
    encode escapes cs = [] ↔ cs = [] := by
  cases cs with
  | nil => simp [encode]
  | cons c cs => simp [encode, encodedChar_ne_nil]

/-! ## Decoding -/

/-- The bytes of a text, written ones read. -/
def decode : List Char → List UInt8
  | '%' :: a :: b :: rest =>
    match Json.hexDigit? a, Json.hexDigit? b with
    | some x, some y => UInt8.ofNat (x * 16 + y) :: decode rest
    | _, _ => String.utf8EncodeChar '%' ++ decode (a :: b :: rest)
  | c :: rest => String.utf8EncodeChar c ++ decode rest
  | [] => []

/-! ## Classes -/

/-- Controls, and everything that is not ASCII. -/
def isControl (c : Char) : Bool :=
  c.toNat < 0x20 || 0x7F ≤ c.toNat

/-- What a fragment must not hold. -/
def inFragment (c : Char) : Bool :=
  isControl c || " \"<>`".contains c

/-- What a query must not hold; in a special URL the single quote is one of them. -/
def inQuery (special : Bool) (c : Char) : Bool :=
  isControl c || " \"#<>".contains c || (special && c = '\'')

/-- What a path must not hold. -/
def inPath (c : Char) : Bool :=
  inFragment c || "#?\x7b\x7d".contains c

/-- What a segment that is added to a path must not hold. -/
def inSegment (special : Bool) (c : Char) : Bool :=
  inPath c || c = '/' || c = '%' || (special && c = '\\')

/-- What a user's name or password must not hold. -/
def inUser (c : Char) : Bool :=
  inPath c || "/:;=@[\\]^|".contains c

/-- What a name or value of a form must not hold, blanks apart. -/
def inForm (c : Char) : Bool :=
  !(c.isAlphanum || "*-._ ".contains c)

/-- A name or value of a form. -/
def encodeForm (cs : List Char) : List Char :=
  (encode inForm cs).map fun c => if c = ' ' then '+' else c

end Waybill.Url.Percent
