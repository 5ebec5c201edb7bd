/-
  Compressed data in blocks.

  A block is stored as it is, or written in prefix codes: symbols below 256 are bytes, 256 ends the
  block, and a greater symbol with the one after it repeats bytes that were written before.

  * `deflate` writes data in stored blocks, `zlib` with a mark before and a checksum after them;
  * `inflate?` reads data in blocks of any kind.

  Codes are read bit by bit: of all codes of one length, those in use follow each other.
-/
import Waybill.Archive.Words

namespace Waybill.Archive

/-! ## Writing -/

/-- The data as stored blocks, the last one marked; at most `fuel + 1` blocks. -/
def storedBlocks : Nat → List UInt8 → List UInt8
  | 0, bytes => storedBlock true bytes
  | fuel + 1, bytes =>
    if bytes.length ≤ 65535 then storedBlock true bytes
    else storedBlock false (bytes.take 65535) ++ storedBlocks fuel (bytes.drop 65535)
where
  /-- One stored block: its mark, its length twice, and the bytes. -/
  storedBlock (last : Bool) (bytes : List UInt8) : List UInt8 :=
    (if last then 1 else 0) :: littleEndian 2 bytes.length ++
      littleEndian 2 (65535 - bytes.length) ++ bytes

/-- The data compressed. -/
def deflate (bytes : List UInt8) : List UInt8 :=
  storedBlocks (bytes.length / 65535) bytes

/-- The data compressed, between a mark and a checksum. -/
def zlib (bytes : List UInt8) : List UInt8 :=
  0x78 :: 0x01 :: deflate bytes ++ (littleEndian 4 (adler32 bytes)).reverse

/-! ## Bits -/

/-- The bits of a byte, the lowest first. -/
def bitsOf (b : UInt8) : List Bool :=
  (List.range 8).map fun i => b.toNat.testBit i

/-- The number that bits spell, the lowest first. -/
def ofBits : List Bool → Nat
  | [] => 0
  | b :: bs => b.toNat + 2 * ofBits bs

/-- The number in the next `n` bits. -/
def takeBits? (n : Nat) (bits : List Bool) : Option (Nat × List Bool) :=
  let taken := bits.take n
  if taken.length = n then some (ofBits taken, bits.drop n) else none

/-! ## Prefix codes -/

/-- A prefix code: the symbols with codes of one, two, … bits, in order. -/
abbrev Code : Type := List (List Nat)

/-- The prefix code with the given length for each symbol, zero for a symbol without a code. -/
def Code.ofLengths (lengths : List Nat) : Code :=
  (List.range 15).map fun i =>
    (lengths.zipIdx.filter fun l => l.1 == i + 1).map (·.2)

/-- The symbol at the front of the bits: `start` is the first code of the length, `code` the bits
    read so far. -/
def Code.next? : Code → Nat → Nat → List Bool → Option (Nat × List Bool)
  | symbols :: longer, start, code, b :: bits =>
    let code := 2 * code + b.toNat
    if code < start then none
    else match symbols[code - start]? with
      | some symbol => some (symbol, bits)
      | none => next? longer (2 * (start + symbols.length)) code bits
  | _, _, _, _ => none

/-- The symbol at the front of the bits. -/
def Code.symbol? (code : Code) (bits : List Bool) : Option (Nat × List Bool) :=
  code.next? 0 0 bits

/-- The code of bytes and lengths in blocks without one of their own. -/
def fixedCode : Code :=
  .ofLengths (List.replicate 144 8 ++ List.replicate 112 9 ++ List.replicate 24 7 ++
    List.replicate 8 8)

/-- The code of distances in blocks without one of their own. -/
def fixedDistances : Code :=
  .ofLengths (List.replicate 30 5)

/-- The base and the number of further bits of a length symbol. -/
def lengthBase (symbol : Nat) : Option (Nat × Nat) :=
  ([3, 4, 5, 6, 7, 8, 9, 10, 11, 13, 15, 17, 19, 23, 27, 31, 35, 43, 51, 59, 67, 83, 99, 115, 131,
    163, 195, 227, 258].zip
    [0, 0, 0, 0, 0, 0, 0, 0, 1, 1, 1, 1, 2, 2, 2, 2, 3, 3, 3, 3, 4, 4, 4, 4, 5, 5, 5, 5, 0])[
      symbol - 257]?

/-- The base and the number of further bits of a distance symbol. -/
def distanceBase (symbol : Nat) : Option (Nat × Nat) :=
  if symbol < 4 then some (symbol + 1, 0)
  else if symbol < 30 then
    let extra := symbol / 2 - 1
    some ((2 + symbol % 2) * 2 ^ extra + 1, extra)
  else none

/-! ## Blocks -/

/-- The output with its last bytes repeated from a distance. -/
def repeated (distance : Nat) : Nat → Array UInt8 → Array UInt8
  | 0, out => out
  | n + 1, out => repeated distance n (out.push (out.getD (out.size - distance) 0))

/-- The rest of a block in prefix codes. -/
def codedBlock (symbols distances : Code) :
    Nat → List Bool → Array UInt8 → Option (Array UInt8 × List Bool)
  | 0, _, _ => none
  | fuel + 1, bits, out => do
    let (symbol, bits) ← symbols.symbol? bits
    if symbol < 256 then codedBlock symbols distances fuel bits (out.push (UInt8.ofNat symbol))
    else if symbol = 256 then some (out, bits)
    else
      let (base, extra) ← lengthBase symbol
      let (more, bits) ← takeBits? extra bits
      let (symbol, bits) ← distances.symbol? bits
      let (distance, extra) ← distanceBase symbol
      let (further, bits) ← takeBits? extra bits
      if out.size < distance + further then none
      else
        let out := repeated (distance + further) (base + more) out
        codedBlock symbols distances fuel bits out

/-- A stored block after its mark. -/
def plainBlock (bits : List Bool) (out : Array UInt8) : Option (Array UInt8 × List Bool) := do
  let bits := bits.drop (bits.length % 8)
  let (length, bits) ← takeBits? 16 bits
  let (check, bits) ← takeBits? 16 bits
  if length + check ≠ 65535 ∨ bits.length < 8 * length then none
  else
    let bytes := (List.range length).foldl (fun (acc : Array UInt8 × List Bool) _ =>
      (acc.1.push (UInt8.ofNat (ofBits (acc.2.take 8))), acc.2.drop 8)) (out, bits)
    some bytes

/-- The order in which the lengths of the length code are given. -/
def lengthOrder : List Nat :=
  [16, 17, 18, 0, 8, 7, 9, 6, 10, 5, 11, 4, 12, 3, 13, 2, 14, 1, 15]

/-- The code lengths of a block, in reverse: `wanted` of them. -/
def codeLengths (code : Code) (wanted : Nat) :
    Nat → List Bool → List Nat → Option (List Nat × List Bool)
  | 0, _, _ => none
  | fuel + 1, bits, found =>
    if wanted ≤ found.length then some (found, bits)
    else do
      let (symbol, bits) ← code.symbol? bits
      if symbol < 16 then codeLengths code wanted fuel bits (symbol :: found)
      else if symbol = 16 then
        let previous ← found.head?
        let (n, bits) ← takeBits? 2 bits
        codeLengths code wanted fuel bits (List.replicate (n + 3) previous ++ found)
      else if symbol = 17 then
        let (n, bits) ← takeBits? 3 bits
        codeLengths code wanted fuel bits (List.replicate (n + 3) 0 ++ found)
      else
        let (n, bits) ← takeBits? 7 bits
        codeLengths code wanted fuel bits (List.replicate (n + 11) 0 ++ found)

/-- The two codes at the front of a block that brings its own. -/
def ownCodes? (bits : List Bool) : Option (Code × Code × List Bool) := do
  let (literals, bits) ← takeBits? 5 bits
  let (distances, bits) ← takeBits? 5 bits
  let (lengths, bits) ← takeBits? 4 bits
  let given := (List.range (lengths + 4)).map fun i => ofBits ((bits.drop (3 * i)).take 3)
  let bits := bits.drop (3 * (lengths + 4))
  let code := Code.ofLengths ((List.range 19).map fun symbol =>
    ((lengthOrder.zip given).lookup symbol).getD 0)
  let wanted := literals + 257 + distances + 1
  let (found, bits) ← codeLengths code wanted (wanted + 1) bits []
  if found.length ≠ wanted then none
  else
    let all := found.reverse
    some (.ofLengths (all.take (literals + 257)), .ofLengths (all.drop (literals + 257)), bits)

/-- All blocks up to the one marked as the last. -/
def blocks? : Nat → List Bool → Array UInt8 → Option (Array UInt8)
  | 0, _, _ => none
  | fuel + 1, bits, out => do
    let (last, bits) ← takeBits? 1 bits
    let (kind, bits) ← takeBits? 2 bits
    let (out, bits) ←
      if kind = 0 then plainBlock bits out
      else if kind = 1 then codedBlock fixedCode fixedDistances (bits.length + 1) bits out
      else if kind = 2 then do
        let (symbols, distances, bits) ← ownCodes? bits
        codedBlock symbols distances (bits.length + 1) bits out
      else none
    if last = 1 then some out else blocks? fuel bits out

/-- The data that was compressed. -/
def inflate? (bytes : List UInt8) : Option (List UInt8) :=
  let bits := bytes.flatMap bitsOf
  (blocks? (bits.length + 1) bits #[]).map (·.toList)

end Waybill.Archive
