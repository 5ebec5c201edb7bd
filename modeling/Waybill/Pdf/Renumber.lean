/-
  Consecutive numbers for the objects of a document.

  The objects keep their order and their generations.  A reference to an object that is there
  follows it to its new number; one that leads nowhere stays as it is.  Only what the trailer
  leads to has its references renamed.

  * `numbering` is the new reference of each object, `renamed` the new form of any reference;
  * `Document.renumber` is the document with its new numbers.

  Statements: `length_renumber`, `number_moved` (the bounds of the new numbers).
-/
import Waybill.Pdf.Document

namespace Waybill.Pdf

/-- The references of objects with the new ones, numbered from `first` on. -/
def numbering : Nat → Objects → List (Ref × Ref)
  | _, [] => []
  | first, (r, _) :: objects => (r, ⟨first, r.generation⟩) :: numbering (first + 1) objects

/-- The new form of a reference. -/
def renamed (first : Nat) (objects : Objects) (r : Ref) : Ref :=
  ((numbering first objects).lookup r).getD r

/-- The objects at their new numbers, as they are. -/
def moved (first : Nat) : Objects → Objects
  | [] => []
  | (r, o) :: objects => (⟨first, r.generation⟩, o) :: moved (first + 1) objects

/-- The document with its objects numbered from `first` on. -/
def Document.renumber (d : Document) (first : Nat) : Document :=
  let f := renamed first d.objects
  let trailer := renameEntries f d.trailer
  let objects := moved first d.objects
  let led := reached (objects.map fun (r, o) => (r, o.rename f)) (refsOfEntries trailer)
  { d with
    trailer := trailer
    objects := objects.map fun (r, o) => (r, if r ∈ led then o.rename f else o) }

@[simp] theorem length_moved (first : Nat) (objects : Objects) :
    (moved first objects).length = objects.length := by
  induction objects generalizing first with
  | nil => rfl
  | cons head objects ih => simp [moved, ih]

@[simp] theorem length_renumber (d : Document) (first : Nat) :
    (d.renumber first).objects.length = d.objects.length := by
  simp [Document.renumber]

/-- The numbers of moved objects start with `first`. -/
theorem number_moved {first : Nat} {objects : Objects} {r : Ref} {o : Object}
    (h : (r, o) ∈ moved first objects) :
    first ≤ r.number ∧ r.number < first + objects.length := by
  induction objects generalizing first with
  | nil => simp [moved] at h
  | cons head objects ih =>
    simp only [moved, List.mem_cons, Prod.mk.injEq] at h
    rcases h with ⟨rfl, -⟩ | h
    · simp only [List.length_cons]; omega
    · have := ih h; simp only [List.length_cons]; omega

end Waybill.Pdf
