/-
  What can go wrong when PDF files are put together.

  * `PdfError` is the cause, `PdfError.message` its text.
-/

namespace Waybill.Pdf

/-- Why files were not put together. -/
inductive PdfError where
  | empty
  | unreadable (index : Nat) (reason : String)
  | unwritable (detail : String)
  deriving DecidableEq, Inhabited

/-- The text of an error. -/
def PdfError.message : PdfError → String
  | .empty => "no PDF documents to merge"
  | .unreadable index reason =>
    "PDF input " ++ toString index ++ " is not readable: " ++ reason
  | .unwritable detail => "failed to write merged PDF: " ++ detail

/-- Whether bytes start as a PDF file does. -/
def isPdf (bytes : ByteArray) : Bool :=
  bytes.extract 0 4 == "%PDF".toUTF8

end Waybill.Pdf
