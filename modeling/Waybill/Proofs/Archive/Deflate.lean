/-
  What is compressed is read back.

  Data is written in stored blocks, whose bytes are read bit by bit.

  * the bits of bytes spell the number that the bytes spell;
  * `blocks?_stored` reads one stored block, `blocks?_storedBlocks` all of them.

  Statements: `inflate?_deflate`, `inflate?_zlib`.
-/
import Waybill.Archive.Deflate

namespace Waybill.Archive

/-! ## Bits -/

theorem ofBits_testBit (n x : Nat) : ofBits ((List.range n).map x.testBit) = x % 2 ^ n := by
  induction n generalizing x with
  | zero => simp [ofBits, Nat.mod_one]
  | succ n ih =>
    have hbits : (List.range (n + 1)).map x.testBit =
        x.testBit 0 :: (List.range n).map (x / 2).testBit := by
      rw [List.range_succ_eq_map, List.map_cons, List.map_map]
      exact congrArg _ (List.map_congr_left fun i _ => Nat.testBit_succ x i)
    rw [hbits, ofBits, ih, Nat.toNat_testBit, Nat.pow_succ', Nat.mod_mul]
    simp

@[simp] theorem ofBits_bitsOf (b : UInt8) : ofBits (bitsOf b) = b.toNat := by
  rw [bitsOf, ofBits_testBit]
  exact Nat.mod_eq_of_lt b.toNat_lt

@[simp] theorem length_bitsOf (b : UInt8) : (bitsOf b).length = 8 := by
  simp [bitsOf]

theorem ofBits_append (bs cs : List Bool) :
    ofBits (bs ++ cs) = ofBits bs + 2 ^ bs.length * ofBits cs := by
  induction bs with
  | nil => simp [ofBits]
  | cons b bs ih =>
    rw [List.cons_append, ofBits, ofBits, ih, List.length_cons, Nat.pow_succ', Nat.mul_add,
      Nat.mul_assoc, Nat.add_assoc]

theorem ofBits_flatMap_bitsOf (bytes : List UInt8) :
    ofBits (bytes.flatMap bitsOf) = ofLittleEndian bytes := by
  induction bytes with
  | nil => rfl
  | cons b bytes ih =>
    rw [List.flatMap_cons, ofBits_append, ih, ofBits_bitsOf, length_bitsOf, ofLittleEndian]

theorem length_flatMap_bitsOf (bytes : List UInt8) :
    (bytes.flatMap bitsOf).length = 8 * bytes.length := by
  induction bytes with
  | nil => rfl
  | cons b bytes ih =>
    rw [List.flatMap_cons, List.length_append, length_bitsOf, ih, List.length_cons]
    omega

theorem takeBits?_append {n : Nat} {bits : List Bool} (h : bits.length = n) (rest : List Bool) :
    takeBits? n (bits ++ rest) = some (ofBits bits, rest) := by
  simp [takeBits?, ← h]

/-- Bits of bytes are taken as the number that the bytes spell. -/
theorem takeBits?_bytes {n : Nat} {bytes : List UInt8} (h : 8 * bytes.length = n)
    (rest : List Bool) :
    takeBits? n (bytes.flatMap bitsOf ++ rest) = some (ofLittleEndian bytes, rest) := by
  rw [takeBits?_append (by rw [length_flatMap_bitsOf, h]), ofBits_flatMap_bitsOf]

/-! ## Stored blocks -/

/-- Reading a byte for each of some marks. -/
theorem foldl_bytes (bytes : List UInt8) {marks : List Nat} (h : marks.length = bytes.length)
    (out : Array UInt8) (rest : List Bool) :
    marks.foldl (fun (acc : Array UInt8 × List Bool) _ =>
        (acc.1.push (UInt8.ofNat (ofBits (acc.2.take 8))), acc.2.drop 8))
      (out, bytes.flatMap bitsOf ++ rest) = (out ++ bytes.toArray, rest) := by
  induction bytes generalizing marks out with
  | nil =>
    obtain rfl := List.length_eq_zero_iff.1 h
    simp
  | cons b bytes ih =>
    obtain ⟨mark, marks, rfl⟩ := List.exists_cons_of_length_eq_add_one h
    have htake : (bitsOf b ++ (bytes.flatMap bitsOf ++ rest)).take 8 = bitsOf b := by
      simp
    have hdrop : (bitsOf b ++ (bytes.flatMap bitsOf ++ rest)).drop 8 =
        bytes.flatMap bitsOf ++ rest := by
      simp
    rw [List.flatMap_cons, List.append_assoc, List.foldl_cons]
    dsimp only
    rw [htake, hdrop, ofBits_bitsOf, UInt8.ofNat_toNat, ih (by simpa using h)]
    simp

/-- A stored block is read after its mark, of which five bits are left. -/
theorem plainBlock_stored {bytes : List UInt8} (h : bytes.length ≤ 65535) {left : List Bool}
    (hleft : left.length = 5) (rest : List UInt8) (out : Array UInt8) :
    plainBlock (left ++ (littleEndian 2 bytes.length ++ littleEndian 2 (65535 - bytes.length) ++
      bytes ++ rest).flatMap bitsOf) out =
        some (out ++ bytes.toArray, rest.flatMap bitsOf) := by
  have hmod : (left ++ (littleEndian 2 bytes.length ++ littleEndian 2 (65535 - bytes.length) ++
      bytes ++ rest).flatMap bitsOf).length % 8 = left.length := by
    rw [List.length_append, length_flatMap_bitsOf]
    omega
  unfold plainBlock
  dsimp only
  rw [hmod, List.drop_left]
  simp only [List.flatMap_append, List.append_assoc]
  rw [takeBits?_bytes (by simp), Option.bind_eq_bind, Option.bind_some]
  dsimp only
  rw [takeBits?_bytes (by simp), Option.bind_some]
  dsimp only
  rw [ofLittleEndian_littleEndian (by omega), ofLittleEndian_littleEndian (by omega), if_neg,
    foldl_bytes bytes (by simp)]
  rw [List.length_append, length_flatMap_bitsOf]
  omega

/-- One stored block is read: it is the last one, or others follow. -/
theorem blocks?_stored (fuel : Nat) (last : Bool) {bytes : List UInt8}
    (h : bytes.length ≤ 65535) (rest : List UInt8) (out : Array UInt8) :
    blocks? (fuel + 1) ((storedBlocks.storedBlock last bytes ++ rest).flatMap bitsOf) out =
      if last then some (out ++ bytes.toArray)
      else blocks? fuel (rest.flatMap bitsOf) (out ++ bytes.toArray) := by
  let mark : UInt8 := if last then 1 else 0
  have hbits : bitsOf mark = [last] ++ ([false, false] ++ List.replicate 5 false) := by
    cases last <;> decide
  have hblock : storedBlocks.storedBlock last bytes ++ rest =
      mark :: (littleEndian 2 bytes.length ++ littleEndian 2 (65535 - bytes.length) ++ bytes ++
        rest) := rfl
  rw [hblock, List.flatMap_cons, hbits, blocks?]
  simp only [List.append_assoc [last], List.append_assoc [false, false]]
  rw [takeBits?_append (n := 1) rfl, Option.bind_eq_bind, Option.bind_some]
  dsimp only
  rw [takeBits?_append (n := 2) rfl, Option.bind_some]
  dsimp only
  rw [if_pos (by decide), plainBlock_stored h (List.length_replicate), Option.bind_eq_bind,
    Option.bind_some]
  cases last <;> rfl

/-- All stored blocks are read, whatever follows them. -/
theorem blocks?_storedBlocks {n fuel : Nat} {bytes : List UInt8}
    (h : bytes.length ≤ 65535 * (n + 1)) (hfuel : n < fuel) (rest : List UInt8)
    (out : Array UInt8) : blocks? fuel ((storedBlocks n bytes ++ rest).flatMap bitsOf) out =
      some (out ++ bytes.toArray) := by
  obtain ⟨fuel, rfl⟩ := Nat.exists_eq_add_one_of_ne_zero (Nat.ne_zero_of_lt hfuel)
  induction n generalizing bytes fuel out with
  | zero =>
    have hshort : bytes.length ≤ 65535 := by omega
    exact blocks?_stored fuel true hshort rest out
  | succ n ih =>
    rw [storedBlocks]
    split
    · next hshort => exact blocks?_stored fuel true hshort rest out
    · obtain ⟨fuel, rfl⟩ := Nat.exists_eq_add_one_of_ne_zero (n := fuel) (by omega)
      have hlater : (bytes.drop 65535).length ≤ 65535 * (n + 1) := by
        rw [List.length_drop]
        omega
      have hall : (bytes.take 65535).toArray ++ (bytes.drop 65535).toArray = bytes.toArray := by
        rw [List.append_toArray, List.take_append_drop]
      rw [List.append_assoc, blocks?_stored _ false (List.length_take_le _ _),
        if_neg (by decide), ih hlater _ _ (by omega), Array.append_assoc, hall]

theorem length_storedBlock (last : Bool) (bytes : List UInt8) :
    (storedBlocks.storedBlock last bytes).length = bytes.length + 5 := by
  simp only [storedBlocks.storedBlock, List.length_cons, List.length_append, length_littleEndian]
  omega

/-- Blocks are not shorter than the data. -/
theorem length_le_length_storedBlocks (n : Nat) (bytes : List UInt8) :
    bytes.length ≤ (storedBlocks n bytes).length := by
  induction n generalizing bytes with
  | zero =>
    rw [storedBlocks, length_storedBlock]
    omega
  | succ n ih =>
    rw [storedBlocks]
    split
    · rw [length_storedBlock]
      omega
    · have h := ih (bytes.drop 65535)
      rw [List.length_drop] at h
      rw [List.length_append, length_storedBlock, List.length_take]
      omega

/-- What is compressed is read back, whatever follows it. -/
theorem inflate?_deflate_append (bytes rest : List UInt8) :
    inflate? (deflate bytes ++ rest) = some bytes := by
  unfold inflate? deflate
  dsimp only
  have hlength := length_le_length_storedBlocks (bytes.length / 65535) bytes
  have hfuel : bytes.length / 65535 <
      ((storedBlocks (bytes.length / 65535) bytes ++ rest).flatMap bitsOf).length + 1 := by
    rw [length_flatMap_bitsOf, List.length_append]
    omega
  rw [blocks?_storedBlocks (by omega) hfuel]
  simp

/-- **What is compressed is read back.** -/
theorem inflate?_deflate (bytes : List UInt8) : inflate? (deflate bytes) = some bytes := by
  have h := inflate?_deflate_append bytes []
  rwa [List.append_nil] at h

/-- What is compressed is read back after its mark. -/
theorem inflate?_zlib (bytes : List UInt8) : inflate? ((zlib bytes).drop 2) = some bytes :=
  inflate?_deflate_append bytes _

end Waybill.Archive
