/-
  The steps of a long run: what generating and delivering packs ask of their surroundings.

  * `Step` is one step: an action on the store, a conversion, a merge, an upload, or a look at the
    clock;
  * `Work` is a program of steps that may end with an error.
-/
import Waybill.Generation.Error
import Waybill.Program

namespace Waybill.Generation

open Waybill.Drive
open Waybill.Pdf (PdfError)

/-- One step of a run, with the type of its answer. -/
inductive Step : Type → Type 1 where
  /-- An action on the store, done as a whole. -/
  | store {α : Type} (action : Action StoreError α) : Step (Except StoreError α)
  /-- A spreadsheet converted to a PDF file; the name is for the file in between, and each request
      may take so many milliseconds. -/
  | convert (xlsx : ByteArray) (name : String) (timeout : Nat) :
      Step (Except ConversionError ByteArray)
  /-- PDF files put together. -/
  | merge (pdfs : List ByteArray) : Step (Except PdfError ByteArray)
  /-- A file stored at a path of the drive. -/
  | upload (path : String) (pdf : ByteArray) (timeout : Nat) : Step (Except DeliveryError Unit)
  /-- The present moment in universal time. -/
  | now : Step Calendar.Instant
  /-- The present day where the program runs. -/
  | today : Step Calendar.Date

/-- A program of steps that may end with an error. -/
abbrev Work (ε α : Type) : Type 1 := ExceptT ε (Program Step) α

namespace Work

/-- A step that cannot fail. -/
def ask {ε α : Type} (step : Step α) : Work ε α :=
  ExceptT.lift (Program.ask step)

/-- A step that may fail. -/
def attempt {ε δ α : Type} (cause : δ → ε) (step : Step (Except δ α)) : Work ε α :=
  ExceptT.mk (do return (← Program.ask step).mapError cause)

end Work

end Waybill.Generation
