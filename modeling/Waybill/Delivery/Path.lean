/-
  Where an artifact goes on the drive.

  * `pdfName` is the name of an artifact's file, `remotePath` its path below the work directory:
    by its shipment, else its carton, else its pack.
-/
import Waybill.Artifact.Basic
import Waybill.Text.Blank
import Waybill.Text.Split

namespace Waybill.Delivery

open Waybill.Text

/-- What follows the last slash of a text, of either kind. -/
def afterSlashes (cs : List Char) : List Char :=
  (cs.reverse.takeWhile fun c => c ≠ '/' && c ≠ '\\').reverse

/-- Whether a name ends as a PDF file does, in either case. -/
def isPdfName (name : String) : Bool :=
  hasEnding ".pdf" (String.ofList (name.toList.map Char.toLower))

/-- The name of an artifact's file: the last part of the stored one, or one made from the pack and
    the number. -/
def pdfName (a : Artifact) : String :=
  let stored := String.ofList (afterSlashes (trimmed (a.pdfName.getD "").toList))
  let name :=
    if stored.isEmpty then "print-pack-" ++ a.packCode ++ "-" ++ toString a.id ++ ".pdf"
    else stored
  if isPdfName name then name else name ++ ".pdf"

/-- A text trimmed, unless nothing is left of it. -/
def filledIn (s : Option String) : Option String :=
  (s.map trim).filter fun s => !s.isEmpty

/-- The folders of an artifact. -/
def folders (a : Artifact) : List String :=
  match filledIn a.shipment, filledIn a.carton with
  | some reference, _ => ["shipments", reference]
  | none, some code => ["cartons", code]
  | none, none => ["packs", (filledIn (some a.packCode)).getD "unknown"]

/-- The path of an artifact on the drive. -/
def remotePath (a : Artifact) (workDir : String) : String :=
  let base := String.ofList (stripEnds '/' (trimmed workDir.toList))
  "/".intercalate ((if base.isEmpty then [] else [base]) ++ folders a ++ [pdfName a])

end Waybill.Delivery
