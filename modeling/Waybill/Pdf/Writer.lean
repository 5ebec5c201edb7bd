/-
  Writing PDF files.

  * `Document.toBytes` writes a document: its version, its objects in order, a stream with their
    places, and the place of that stream.

  Objects that are themselves about places in a file are not written.
-/
import Waybill.Pdf.Document
import Waybill.Pdf.Lexical

namespace Waybill.Pdf

/-- A number in a fixed number of bytes, the highest first. -/
def bigEndian : Nat → Nat → List UInt8
  | 0, _ => []
  | n + 1, x => bigEndian n (x / 256) ++ [UInt8.ofNat x]

/-- An object with its reference. -/
def writtenObject (r : Ref) (o : Object) : List Char :=
  let close := match o with
    | .name _ | .stream .. => true
    | o => needsBlank o
  (toString r.number ++ " " ++ toString r.generation ++ " obj\n").toList ++ written o ++
    (if close then " " else "").toList ++ "\nendobj\n".toList

/-- Objects one after the other, with the place of each. -/
def writtenObjects : Nat → Objects → List (Ref × Nat) × List Char
  | _, [] => ([], [])
  | place, (r, o) :: objects =>
    let text := writtenObject r o
    let rest := writtenObjects (place + text.length) objects
    ((r, place) :: rest.1, text ++ rest.2)

/-- The first number and the count of each run of consecutive numbers. -/
def runs : List Nat → List (Nat × Nat)
  | [] => []
  | n :: ns =>
    match runs ns with
    | (first, count) :: rest =>
      if first = n + 1 then (n, count + 1) :: rest else (n, 1) :: (first, count) :: rest
    | [] => [(n, 1)]

/-- Whether an object is about places in a file. -/
def isStructural (o : Object) : Bool :=
  match o.entries?.bind Dict.typeName? with
  | some type => ["ObjStm", "XRef", "Linearized"].contains type
  | none => false

/-- The stream with the places of objects. -/
def placesStream (trailer : Dict) (size : Nat) (places : List (Ref × Nat)) : Object :=
  let content := places.flatMap fun (r, place) =>
    1 :: bigEndian 4 place ++ bigEndian 2 r.generation
  let index := (runs (places.map (·.1.number))).flatMap fun (first, count) =>
    [Object.int first, .int count]
  let own : Dict := [("Type", .name "XRef"), ("Size", .int size),
    ("W", .array [.int 1, .int 4, .int 2]), ("Index", .array index),
    ("Length", .int content.length)]
  .stream (own.foldl (fun d entry => Dict.set entry.1 entry.2 d) (trailer.erase "Filter")) content

/-- A document as text with one character a byte. -/
def Document.written (d : Document) : List Char :=
  let head := ("%PDF-" ++ d.version ++ "\n").toList
  let last := d.objects.foldl (fun n o => max n o.1.number) 0
  let (places, body) := writtenObjects head.length
    (d.objects.filter fun (_, o) => !isStructural o)
  let start := head.length + body.length
  let places := places ++ [(⟨last + 1, 0⟩, start)]
  head ++ body ++ writtenObject ⟨last + 1, 0⟩ (placesStream d.trailer (last + 2) places) ++
    ("\nstartxref\n" ++ toString start ++ "\n%%EOF").toList

/-- A document as a file. -/
def Document.toBytes (d : Document) : ByteArray :=
  ⟨(Text.Octets.toBytes d.written).toArray⟩

end Waybill.Pdf
