/-
  The pool of several documents.

  * `Seat` is a document with the first of its new numbers, `Seat.copy` the document under these;
  * `seats` are documents, each with numbers after those of the documents before it;
  * `pool` is what the documents are gathered in.

  Statements: `pages_pool` and `find?_pool` (what a pool holds), `pairwise_copies` (no number is
  given twice).
-/
import Waybill.Proofs.Pdf.PageTree

namespace Waybill.Pdf

/-! ## Seats -/

/-- A document with the first of its new numbers. -/
structure Seat where
  first : Nat
  source : Document

namespace Seat

/-- The document under its new numbers. -/
def copy (seat : Seat) : Document :=
  seat.source.renumber seat.first

/-- The new form of a reference. -/
def place (seat : Seat) (r : Ref) : Ref :=
  renamed seat.first seat.source.objects r

end Seat

/-- The documents, each with numbers after those of the documents before it. -/
def seats : Nat → List Document → List Seat
  | _, [] => []
  | n, d :: docs => ⟨n, d⟩ :: seats (n + d.objects.length) docs

theorem map_source_seats (n : Nat) (docs : List Document) :
    (seats n docs).map Seat.source = docs := by
  induction docs generalizing n with
  | nil => rfl
  | cons d docs ih => exact congrArg (d :: ·) (ih _)

theorem source_mem {n : Nat} {docs : List Document} {seat : Seat} (h : seat ∈ seats n docs) :
    seat.source ∈ docs := by
  rw [← map_source_seats n docs]
  exact List.mem_map_of_mem h

theorem exists_seat (n : Nat) {docs : List Document} {d : Document} (h : d ∈ docs) :
    ∃ seat ∈ seats n docs, seat.source = d := by
  rwa [← map_source_seats n docs, List.mem_map] at h

theorem le_of_mem_seats {n : Nat} {docs : List Document} {seat : Seat}
    (h : seat ∈ seats n docs) : n ≤ seat.first := by
  induction docs generalizing n with
  | nil => cases h
  | cons d docs ih =>
    rcases List.mem_cons.1 h with rfl | h
    · exact Nat.le_refl _
    · exact Nat.le_trans (Nat.le_add_right _ _) (ih h)

/-- The numbers of one document come after those of the documents before it. -/
theorem pairwise_seats (n : Nat) (docs : List Document) :
    (seats n docs).Pairwise fun a b => a.first + a.source.objects.length ≤ b.first := by
  induction docs generalizing n with
  | nil => exact .nil
  | cons d docs ih => exact List.pairwise_cons.2 ⟨fun _ => le_of_mem_seats, ih _⟩

/-- No number is given twice. -/
theorem pairwise_copies (n : Nat) (docs : List Document) :
    (seats n docs).Pairwise fun a b => ∀ r, a.copy.find? r = none ∨ b.copy.find? r = none := by
  refine (pairwise_seats n docs).imp fun {a b} hab r => ?_
  cases hfirst : a.copy.find? r with
  | none => exact Or.inl rfl
  | some o =>
    cases hsecond : b.copy.find? r with
    | none => exact Or.inr rfl
    | some p =>
      have hbefore := Document.numbers_renumber (Objects.mem_of_find? hfirst)
      have hafter := Document.numbers_renumber (Objects.mem_of_find? hsecond)
      omega

theorem seats_eq {n : Nat} {docs : List Document} {a b : Seat} (ha : a ∈ seats n docs)
    (hb : b ∈ seats n docs) {r : Ref} (hr : (a.copy.find? r).isSome)
    (hr' : (b.copy.find? r).isSome) : a = b := by
  by_contra hne
  have : Std.Symm fun a b : Seat => ∀ r, a.copy.find? r = none ∨ b.copy.find? r = none :=
    ⟨fun _ _ h r => (h r).symm⟩
  rcases (pairwise_copies n docs).forall ha hb hne r with h | h
  · simp [h] at hr
  · simp [h] at hr'

/-! ## Pools -/

/-- The pages of a document, each with its attributes. -/
def Document.leaves (d : Document) : List (Ref × Dict) :=
  d.pages.filterMap fun r => (d.page? r).map (r, ·)

theorem Document.mem_leaves {d : Document} {r : Ref} {page : Dict} :
    (r, page) ∈ d.leaves ↔ r ∈ d.pages ∧ d.page? r = some page := by
  simp only [leaves, List.mem_filterMap, Option.map_eq_some_iff, Prod.mk.injEq]
  constructor
  · rintro ⟨s, hs, e, he, rfl, rfl⟩
    exact ⟨hs, he⟩
  · rintro ⟨hr, hpage⟩
    exact ⟨r, hr, page, hpage, rfl, rfl⟩

theorem Document.map_fst_leaves (d : Document) : d.leaves.map Prod.fst = d.pages := by
  rw [leaves, List.map_filterMap]
  refine (List.filterMap_congr fun r hr => ?_).trans List.filterMap_some
  obtain ⟨page, hpage⟩ := exists_page_of_mem_pages hr
  rw [hpage]
  rfl

/-- The pool of documents. -/
def pool (docs : List Document) : Pool := docs.foldl Pool.add .empty

namespace Pool

theorem objects_foldl_add (docs : List Document) (p : Pool) : (docs.foldl Pool.add p).objects =
    p.objects ++ (seats p.next docs).flatMap fun seat => seat.copy.objects := by
  induction docs generalizing p with
  | nil => simp [seats]
  | cons d docs ih =>
    rw [List.foldl_cons, ih, next_add, seats, List.flatMap_cons, ← List.append_assoc]
    rfl

theorem pages_foldl_add (docs : List Document) (p : Pool) : (docs.foldl Pool.add p).pages =
    p.pages ++ (seats p.next docs).flatMap fun seat => seat.copy.leaves := by
  induction docs generalizing p with
  | nil => simp [seats]
  | cons d docs ih =>
    rw [List.foldl_cons, ih, next_add, seats, List.flatMap_cons, ← List.append_assoc]
    rfl

/-- The objects that are kept as they are: those of a type that is kept. -/
theorem find?_others {p : Pool} (hp : p.objects.Ascending) {r : Ref} {o : Object} :
    p.others.find? r = some o ↔
      p.objects.find? r = some o ∧ ∀ type ∈ o.typeName?, type ∉ dropped := by
  have hothers : p.others.Ascending := hp.sublist List.filter_sublist
  rw [hothers.find?_eq_some, hp.find?_eq_some, others, List.mem_filter]
  refine and_congr_right fun _ => ?_
  cases h : o.typeName? <;> simp [h]

end Pool

section
variable {docs : List Document}

theorem pages_pool (docs : List Document) :
    (pool docs).pages = (seats 1 docs).flatMap fun seat => seat.copy.leaves :=
  Pool.pages_foldl_add docs .empty

theorem objects_pool (docs : List Document) :
    (pool docs).objects = (seats 1 docs).flatMap fun seat => seat.copy.objects :=
  Pool.objects_foldl_add docs .empty

theorem ascending_pool (docs : List Document) : (pool docs).objects.Ascending := by
  rw [objects_pool]
  refine List.pairwise_flatMap.2 ⟨fun seat _ => seat.source.ascending_renumber seat.first, ?_⟩
  refine (pairwise_seats 1 docs).imp fun {a b} hab x hx y hy => Ref.before_iff.2 (Or.inl ?_)
  have hx := (Document.numbers_renumber hx).2
  have hy := (Document.numbers_renumber hy).1
  omega

/-- The pool holds the objects of all documents. -/
theorem find?_pool {r : Ref} {o : Object} : (pool docs).objects.find? r = some o ↔
    ∃ seat ∈ seats 1 docs, seat.copy.find? r = some o := by
  rw [(ascending_pool docs).find?_eq_some, objects_pool, List.mem_flatMap]
  simp only [Seat.copy, Document.find?, (Document.ascending_renumber _ _).find?_eq_some]

/-- There is a dictionary of a type in the pool when there is one in a document. -/
theorem first?_isSome (hd : ∀ d ∈ docs, d.objects.Ascending) {type : String}
    (h : ∃ d ∈ docs, ∃ r o, d.find? r = some o ∧ o.typeName? = some type) :
    ((pool docs).first? type).isSome := by
  obtain ⟨d, hmem, r, o, ho, htype⟩ := h
  obtain ⟨seat, hseat, rfl⟩ := exists_seat 1 hmem
  obtain ⟨p, hp, hsame⟩ := Document.exists_find?_renumber (n := seat.first) (hd _ hmem) ho
  have hpool := Objects.mem_of_find? (find?_pool.2 ⟨seat, hseat, hp⟩)
  rw [htype] at hsame
  obtain ⟨e, he, -⟩ := Option.bind_eq_some_iff.1 hsame
  rw [Pool.first?, List.findSome?_isSome_iff]
  exact ⟨_, hpool, by simp [hsame, he]⟩

theorem of_first? {type : String} {found : Ref × Dict} (h : (pool docs).first? type = some found) :
    (pool docs).objects.find? found.1 = some (.dict found.2) ∧ found.2.typeName? = some type := by
  obtain ⟨⟨r, o⟩, hmem, h⟩ := List.exists_of_findSome?_eq_some h
  dsimp only at h
  split at h
  · next htype =>
    obtain ⟨e, he, rfl⟩ := Option.map_eq_some_iff.1 h
    have hdict := dict?_eq_some.1 he
    subst hdict
    exact ⟨(ascending_pool docs).find?_eq_some.2 hmem, htype⟩
  · cases h

end

end Waybill.Pdf
