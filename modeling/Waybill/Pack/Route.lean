/-
  Routes: which pack prints a business document.

  * `Request` asks for a pack, for a shipment or a carton;
  * `Route` names a pack and its variant, `Route.request` asks for it;
  * `Route.ofType?` is the route of a document type.
-/
import Waybill.Text.Blank

namespace Waybill

/-- What is to be printed, for whom. -/
structure Request where
  pack : String
  shipment : Option String
  carton : Option String
  variant : Option String
  user : Option String
  deriving DecidableEq, Inhabited

/-- A request for a whole pack. -/
def Request.ofPack (code : String) : Request := ⟨code, none, none, none, none⟩

/-- A pack and a variant of its documents; the document type is empty when the whole pack is
    printed for its own sake. -/
structure Route where
  pack : String
  variant : String
  type : String
  deriving DecidableEq, Inhabited

namespace Route

/-- The request for a route. -/
def request (r : Route) : Request :=
  { Request.ofPack r.pack with variant := some r.variant }

/-- The routes of the business documents. -/
def documents : List Route := [
  ⟨"C", "shipment", "shipment_note"⟩,
  ⟨"B", "shipment", "packing_list_shipment"⟩,
  ⟨"B", "shipment", "donation_certificate"⟩]

/-- The route of a document type, blanks around it aside. -/
def ofType? (type : String) : Option Route :=
  documents.find? fun r => r.type == Text.trim type

/-- The route for picking a carton. -/
def cartonPicking : Route := ⟨"A", "single_carton", ""⟩

/-- The route for all labels of a shipment. -/
def shipmentLabels : Route := ⟨"D", "all_labels", ""⟩

/-- The route for one label. -/
def singleLabel : Route := ⟨"D", "single_label", ""⟩

/-- The route for packing a carton. -/
def cartonPacking : Route := ⟨"B", "per_carton_single", ""⟩

end Route

end Waybill
