/-
  Streams stored in fewer bytes.

  A stream without a filter is compressed if that saves more than the entry for the filter takes.

  * `Object.compressed` and `Document.compress` do that, given what compresses bytes.
-/
import Waybill.Pdf.Document

namespace Waybill.Pdf

/-- What compresses bytes. -/
abbrev Compressor : Type := List UInt8 → List UInt8

/-- How many bytes the entry for a filter takes. -/
def filterSize : Nat := 19

/-- The object in fewer bytes, if it is a stream that has no filter. -/
def Object.compressed (zlib : Compressor) : Object → Object
  | .stream entries content =>
    let packed := zlib content
    if !Dict.has "Filter" entries && packed.length + filterSize < content.length then
      .stream ((Dict.set "Filter" (.name "FlateDecode") entries).set "Length"
        (.int packed.length)) packed
    else .stream entries content
  | o => o

/-- The document with its streams in fewer bytes. -/
def Document.compress (zlib : Compressor) (d : Document) : Document :=
  { d with objects := d.objects.map fun (r, o) => (r, o.compressed zlib) }

end Waybill.Pdf
