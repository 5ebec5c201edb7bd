/-
  Numbers as bytes, and checksums.

  * `littleEndian` writes a number in a fixed number of bytes, `ofLittleEndian` reads one;
  * `crc32` is the 32-bit cyclic redundancy check, `adler32` the sum of sums.

  Statements: `length_littleEndian` and `ofLittleEndian_littleEndian` (reading what was written).
-/
import Waybill.Instances

namespace Waybill.Archive

/-! ## Numbers -/

/-- The lowest `n` bytes of a number, the lowest first. -/
def littleEndian : Nat → Nat → List UInt8
  | 0, _ => []
  | n + 1, x => UInt8.ofNat x :: littleEndian n (x / 256)

/-- The number that bytes spell, the lowest first. -/
def ofLittleEndian : List UInt8 → Nat
  | [] => 0
  | b :: bs => b.toNat + 256 * ofLittleEndian bs

@[simp] theorem length_littleEndian (n x : Nat) : (littleEndian n x).length = n := by
  induction n generalizing x with
  | zero => rfl
  | succ n ih => simp [littleEndian, ih]

theorem ofLittleEndian_littleEndian {n x : Nat} (h : x < 256 ^ n) :
    ofLittleEndian (littleEndian n x) = x := by
  induction n generalizing x with
  | zero => simp only [Nat.pow_zero] at h; simp [littleEndian, ofLittleEndian]; omega
  | succ n ih =>
    have hd : x / 256 < 256 ^ n := by
      apply (Nat.div_lt_iff_lt_mul (by decide : 0 < 256)).2
      simpa [Nat.pow_succ] using h
    simp only [littleEndian, ofLittleEndian, UInt8.toNat_ofNat', ih hd]
    omega

/-! ## Checksums -/

/-- One bit of the division by the checksum's polynomial. -/
def crcBit (c : UInt32) : UInt32 :=
  if c &&& 1 == 1 then (c >>> 1) ^^^ 0xEDB88320 else c >>> 1

/-- One byte of the division. -/
def crcByte (c : UInt32) (b : UInt8) : UInt32 :=
  Nat.repeat crcBit 8 (c ^^^ b.toUInt32)

/-- The checksum of bytes. -/
def crc32 (bytes : List UInt8) : UInt32 :=
  bytes.foldl crcByte 0xFFFFFFFF ^^^ 0xFFFFFFFF

/-- The sum of bytes plus one, below the sum of all these sums. -/
def adler32 (bytes : List UInt8) : Nat :=
  let sums := bytes.foldl (fun sums b =>
    let sum := (sums.1 + b.toNat) % 65521
    (sum, (sums.2 + sum) % 65521)) (1, 0)
  sums.2 * 65536 + sums.1

end Waybill.Archive
