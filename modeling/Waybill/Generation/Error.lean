/-
  What can go wrong when a pack is generated.

  * `PackError` is the cause, `PackError.message` its text.
-/
import Waybill.Drive.Error
import Waybill.Mapping.Fill
import Waybill.Pdf.Error
import Waybill.Store.Basic

namespace Waybill.Generation

open Waybill.Mapping Waybill.Sheet Waybill.Drive
open Waybill.Pdf (PdfError)

/-- Why a pack is not generated. -/
inductive PackError where
  | unknownPack (code : String)
  | noDocuments (code : String)
  | missingTemplate (type searched : String)
  | templateIo (path detail : String)
  | unknownShipment (reference : String)
  | unknownCarton (code : String)
  | nothingRendered (code : String)
  | fill (error : FillError)
  | conversion (error : ConversionError)
  | pdf (error : PdfError)
  | workbook (error : WorkbookError)
  | store (error : StoreError)
  | bundle (detail : String)
  deriving DecidableEq, Inhabited

/-- The text of an error. -/
def PackError.message : PackError → String
  | .unknownPack code => "unknown active pack: " ++ code
  | .noDocuments code => "no enabled documents configured for pack " ++ code
  | .missingTemplate type searched =>
    "missing xlsx template file for doc_type=" ++ type ++ ". Searched: " ++ searched
  | .templateIo path detail => "failed to read template " ++ path ++ ": " ++ detail
  | .unknownShipment reference => "unknown shipment: " ++ reference
  | .unknownCarton code => "unknown carton: " ++ code
  | .nothingRendered code => "no generated documents for pack " ++ code
  | .fill e => e.message
  | .conversion e => e.message
  | .pdf e => e.message
  | .workbook e => e.message
  | .store e => e.message
  | .bundle detail => "failed to bundle spreadsheets: " ++ detail

end Waybill.Generation
