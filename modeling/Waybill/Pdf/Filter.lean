/-
  The contents of streams as they are meant.

  A filter tells how the bytes of a stream were compressed.  Before compression each row of the
  bytes may have been written as differences from its neighbours.

  * `decoded?` is the content of a stream after its filters;
  * `shownContent` is that, or the bytes as they are.
-/
import Waybill.Archive.Deflate
import Waybill.Pdf.Object

namespace Waybill.Pdf

/-! ## Rows of differences -/

/-- The neighbour that the sum of two neighbours less the third is nearest to. -/
def nearest (left above corner : Nat) : Nat :=
  let p := Int.ofNat left + Int.ofNat above - Int.ofNat corner
  let off := fun (n : Nat) => (p - Int.ofNat n).natAbs
  if off left ≤ off above ∧ off left ≤ off corner then left
  else if off above ≤ off corner then above
  else corner

/-- What a kind of row adds to a byte, by its neighbours. -/
def predicted (kind left above corner : Nat) : Nat :=
  match kind with
  | 1 => left
  | 2 => above
  | 3 => (left + above) / 2
  | 4 => nearest left above corner
  | _ => 0

/-- The bytes of a row from its differences, the row above it given; `width` bytes lie between
    a byte and its left neighbour. -/
def restoredRow (kind width : Nat) (above : Array UInt8) (row : List UInt8) : Array UInt8 :=
  row.foldl (fun done b =>
    let i := done.size
    let at? := fun (a : Array UInt8) (k : Nat) => if k ≤ i then (a.getD (i - k) 0).toNat else 0
    done.push (UInt8.ofNat (b.toNat + predicted kind (at? done width) (at? above 0)
      (at? above width)))) #[]

/-- The bytes of all rows from their differences. -/
def restoredRows (width columns : Nat) : Nat → Array UInt8 → List UInt8 → List UInt8
  | 0, _, _ => []
  | _, _, [] => []
  | fuel + 1, above, kind :: bytes =>
    let row := restoredRow kind.toNat width above (bytes.take columns)
    row.toList ++ restoredRows width columns fuel row (bytes.drop columns)

/-- The bytes as the parameters of a filter say they were before. -/
def restored (parameters : Dict) (bytes : List UInt8) : List UInt8 :=
  let number := fun name default =>
    (((parameters.get? name).bind Object.int?).getD default).toNat
  let predictor := number "Predictor" 1
  if 10 ≤ predictor ∧ predictor ≤ 15 then
    let bits := number "Colors" 1 * number "BitsPerComponent" 8
    restoredRows (max 1 (bits / 8)) ((number "Columns" 1 * bits + 7) / 8) bytes.length #[] bytes
  else bytes

/-! ## Filters -/

/-- The filters of a stream in the order of decoding. -/
def filters (d : Dict) : List (Option String) :=
  match d.get? "Filter" with
  | some (.name f) => [some f]
  | some (.array items) => items.map Object.name?
  | _ => []

/-- The content of a stream after its filters; nothing if it has none that is known. -/
def decoded? (d : Dict) (content : List UInt8) : Option (List UInt8) :=
  let parameters := ((d.get? "DecodeParms").bind Object.dict?).getD []
  let step := fun (bytes : List UInt8) (f : Option String) =>
    if f = some "FlateDecode" then
      (Archive.inflate? (bytes.drop 2)).map (restored parameters)
    else none
  if (filters d).isEmpty then none else (filters d).foldlM step content

/-- The content of a stream after its filters, and as it is if that cannot be told. -/
def shownContent (d : Dict) (content : List UInt8) : List UInt8 :=
  (decoded? d content).getD content

end Waybill.Pdf
