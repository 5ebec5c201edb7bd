/-
  The 256-bit secure hash.

  The message is padded to blocks of 64 bytes; each block is spread into 64 words, which are
  mixed one after the other into eight state words.

  * `padded` is the message with its length at the end of the last block;
  * `compress` mixes one block into the state;
  * `sha256Hex` is the digest in lower-case hexadecimal.
-/
import Waybill.Instances

namespace Waybill.Digest

/-! ## Constants -/

/-- The greatest number whose power with exponent `k` is at most `n`, its bits found from the one
    of weight `2 ^ (bits - 1)` down. -/
def root (k n : Nat) : Nat → Nat → Nat
  | 0, found => found
  | bits + 1, found =>
    let next := found + 2 ^ bits
    root k n bits (if next ^ k ≤ n then next else found)

/-- Whether a number has no divisor from 2 on below itself. -/
def isPrime (n : Nat) : Bool :=
  2 ≤ n && (List.range n).all fun d => d < 2 || n % d != 0

/-- The first 64 prime numbers. -/
def primes : List Nat :=
  (List.range 312).filter isPrime

/-- The first 32 bits of the fraction of a root. -/
def fractionBits (k n : Nat) : UInt32 :=
  UInt32.ofNat (root k (n * 2 ^ (32 * k)) 40 0)

/-- The words added in the 64 rounds: from the cube roots of the first 64 primes. -/
def roundWords : Array UInt32 :=
  (primes.map (fractionBits 3)).toArray

/-- The first state: from the square roots of the first 8 primes. -/
def initial : Array UInt32 :=
  ((primes.take 8).map (fractionBits 2)).toArray

/-! ## Blocks -/

/-- The `n` lowest bytes of a number, the highest first. -/
def bigEndian : Nat → Nat → List UInt8
  | 0, _ => []
  | n + 1, x => bigEndian n (x / 256) ++ [UInt8.ofNat x]

/-- The message, a set bit, zeros, and the length of the message in bits. -/
def padded (message : List UInt8) : List UInt8 :=
  message ++ 0x80 :: List.replicate ((119 - message.length % 64) % 64) 0 ++
    bigEndian 8 (8 * message.length)

/-- The word of four bytes. -/
def word (a b c d : UInt8) : UInt32 :=
  UInt32.ofNat (((a.toNat * 256 + b.toNat) * 256 + c.toNat) * 256 + d.toNat)

/-- The words of a block. -/
def words : List UInt8 → List UInt32
  | a :: b :: c :: d :: rest => word a b c d :: words rest
  | _ => []

/-- The word turned to the right. -/
def turn (x : UInt32) (n : UInt32) : UInt32 :=
  (x >>> n) ||| (x <<< (32 - n))

/-- The word of a place. -/
def wordAt (ws : Array UInt32) (i : Nat) : UInt32 :=
  ws.getD i 0

/-- The 64 words a block is spread into. -/
def spread (block : List UInt8) : Array UInt32 :=
  (List.range 48).foldl (fun ws i =>
    let a := wordAt ws (i + 1)
    let b := wordAt ws (i + 14)
    let s0 := turn a 7 ^^^ turn a 18 ^^^ (a >>> 3)
    let s1 := turn b 17 ^^^ turn b 19 ^^^ (b >>> 10)
    ws.push (wordAt ws i + s0 + wordAt ws (i + 9) + s1)) (words block).toArray

/-- One round with its two words. -/
def round (state : Array UInt32) (k w : UInt32) : Array UInt32 :=
  let a := wordAt state 0
  let b := wordAt state 1
  let c := wordAt state 2
  let e := wordAt state 4
  let f := wordAt state 5
  let g := wordAt state 6
  let s1 := turn e 6 ^^^ turn e 11 ^^^ turn e 25
  let choice := (e &&& f) ^^^ ((~~~ e) &&& g)
  let t1 := wordAt state 7 + s1 + choice + k + w
  let s0 := turn a 2 ^^^ turn a 13 ^^^ turn a 22
  let majority := (a &&& b) ^^^ (a &&& c) ^^^ (b &&& c)
  #[t1 + (s0 + majority), a, b, c, wordAt state 3 + t1, e, f, g]

/-- The state after a block. -/
def compress (state : Array UInt32) (block : List UInt8) : Array UInt32 :=
  let ws := spread block
  let mixed := (List.range 64).foldl (fun s i => round s (wordAt roundWords i) (wordAt ws i)) state
  Array.zipWith (· + ·) state mixed

/-- The message in blocks of 64 bytes, at most `n` of them. -/
def blocks : Nat → List UInt8 → List (List UInt8)
  | 0, _ => []
  | n + 1, bytes => bytes.take 64 :: blocks n (bytes.drop 64)

/-! ## The digest -/

/-- The digest as words. -/
def sha256 (message : List UInt8) : Array UInt32 :=
  let bytes := padded message
  (blocks (bytes.length / 64) bytes).foldl compress initial

/-- A word in eight hexadecimal digits. -/
def hexWord (w : UInt32) : String :=
  let ds := Nat.toDigits 16 w.toNat
  String.ofList (List.replicate (8 - ds.length) '0' ++ ds)

/-- The digest in lower-case hexadecimal. -/
def sha256Hex (message : ByteArray) : String :=
  String.join ((sha256 message.toList).toList.map hexWord)

end Waybill.Digest
