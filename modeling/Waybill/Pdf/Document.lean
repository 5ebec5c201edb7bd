/-
  A PDF document: its objects by number and generation, and its trailer.

  * `Document.find?` is the object of a reference, `Document.dict?` the dictionary that a
    reference leads to, at most 128 references further on;
  * `Document.pages` are the leaves of the page tree in its order;
  * `reached` are the objects that references lead to.

  A walk through the page tree looks at as many kids as there are objects, so one that returns to
  itself ends.

  Statements: `find?_insert` (what an insertion leaves), `subset_reached` and `closed_reached`
  (what one starts from is reached, and what a reached object refers to).
-/
import Waybill.Pdf.Object

namespace Waybill.Pdf

/-! ## Objects by reference -/

/-- Objects with their references, in the order of these. -/
abbrev Objects : Type := List (Ref × Object)

namespace Objects

/-- The object of a reference. -/
def find? (r : Ref) : Objects → Option Object
  | [] => none
  | (s, o) :: objects => if s = r then some o else find? r objects

/-- The objects with one more, or one replaced. -/
def insert (r : Ref) (o : Object) : Objects → Objects
  | [] => [(r, o)]
  | (s, p) :: objects =>
    if s = r then (r, o) :: objects
    else if r.before s then (r, o) :: (s, p) :: objects
    else (s, p) :: insert r o objects

/-- Objects put in order, the last of equal references. -/
def ofList (objects : List (Ref × Object)) : Objects :=
  objects.foldl (fun done o => insert o.1 o.2 done) []

theorem find?_insert (r s : Ref) (o : Object) (objects : Objects) :
    (objects.insert r o).find? s = if r = s then some o else objects.find? s := by
  induction objects with
  | nil => rfl
  | cons head objects ih =>
    obtain ⟨t, p⟩ := head
    unfold insert
    split
    · next h => subst h; by_cases hs : t = s <;> simp [find?, hs]
    · next h =>
      split
      · simp [find?]
      · by_cases ht : t = s
        · subst ht; simp [find?, Ne.symm h]
        · simp [find?, ht, ih]

theorem mem_of_find? {r : Ref} {o : Object} {objects : Objects}
    (h : objects.find? r = some o) : (r, o) ∈ objects := by
  induction objects with
  | nil => simp [find?] at h
  | cons head objects ih =>
    obtain ⟨t, p⟩ := head
    unfold find? at h
    split at h
    · next ht => simp_all
    · exact List.mem_cons_of_mem _ (ih h)

end Objects

/-! ## Documents -/

/-- A document: the version it is written in, its trailer and its objects. -/
structure Document where
  version : String
  trailer : Dict
  objects : Objects
  deriving Inhabited

namespace Document

/-- The object of a reference. -/
def find? (d : Document) (r : Ref) : Option Object :=
  d.objects.find? r

/-- The object at the end of at most this many references. -/
def target? (d : Document) : Nat → Object → Option Object
  | 0, .ref _ => none
  | n + 1, .ref r => (d.find? r).bind (target? d n)
  | _, o => some o

/-- The object that a reference leads to. -/
def follow? (d : Document) (r : Ref) : Option Object :=
  (d.find? r).bind (d.target? 128)

/-- The dictionary that a reference leads to. -/
def dict? (d : Document) (r : Ref) : Option Dict :=
  (d.follow? r).bind Object.dict?

/-- The dictionary at the root of the document. -/
def catalog? (d : Document) : Option Dict :=
  ((d.trailer.get? "Root").bind Object.ref?).bind d.dict?

/-- The reference to the root of the page tree. -/
def pagesRef? (d : Document) : Option Ref :=
  (d.catalog?.bind (Dict.get? "Pages")).bind Object.ref?

/-! ## The page tree -/

/-- The kids of a node of the page tree, none for what is no node. -/
def kids (d : Document) (r : Ref) : List Object :=
  (((d.dict? r).bind (Dict.get? "Kids")).bind Object.array?).getD []

/-- How many nodes with kids to come may lie around a node. -/
def levelLimit : Nat := 256

/-- What comes around a node's kids: the rest of the kids beside it, and what came around them. -/
def outer (rest : List Object) (around : List (List Object)) : List (List Object) :=
  if rest.isEmpty then around else rest :: around

/-- The pages among the kids of a node and of the nodes around it; at most `n` kids are
    looked at. -/
def pagesFrom (d : Document) : Nat → List Object → List (List Object) → List Ref
  | 0, _, _ => []
  | _, [], [] => []
  | n + 1, [], kids :: around => pagesFrom d (n + 1) kids around
  | n + 1, kid :: rest, around =>
    match kid.ref? with
    | none => pagesFrom d n rest around
    | some r =>
      match (d.dict? r).bind Dict.typeName? with
      | some "Page" => r :: pagesFrom d n rest around
      | some "Pages" =>
        if around.length < levelLimit then pagesFrom d n (d.kids r) (outer rest around)
        else pagesFrom d n rest around
      | _ => pagesFrom d n rest around
termination_by n _ around => (n, around.length)

/-- The references to the pages in their order. -/
def pages (d : Document) : List Ref :=
  match d.pagesRef? with
  | none => []
  | some root => d.pagesFrom d.objects.length (d.kids root) []

end Document

/-! ## What references lead to -/

/-- The references in the object of a reference. -/
def refsAt (objects : Objects) (r : Ref) : List Ref :=
  ((objects.find? r).map Object.refs).getD []

/-- The objects that are not among the seen ones. -/
def unseen (objects : Objects) (seen : List Ref) : Objects :=
  objects.filter fun o => o.1 ∉ seen

theorem length_unseen_lt {objects : Objects} {seen : List Ref} {r : Ref} {o : Object}
    (hr : r ∉ seen) (ho : objects.find? r = some o) :
    (unseen objects (r :: seen)).length < (unseen objects seen).length := by
  have hm : (r, o) ∈ unseen objects seen := by
    simp [unseen, Objects.mem_of_find? ho, hr]
  have heq : unseen objects (r :: seen) = (unseen objects seen).filter fun o => o.1 ≠ r := by
    simp [unseen, List.filter_filter]
  rw [heq]
  refine List.length_filter_lt_length_iff_exists.2 ⟨_, hm, by simp⟩

/-- What is seen, what the rest leads to, and on from there. -/
def reachedFrom (objects : Objects) (seen : List Ref) : List Ref → List Ref
  | [] => seen
  | r :: todo =>
    if _hr : r ∈ seen then reachedFrom objects seen todo
    else
      match _ho : objects.find? r with
      | none => reachedFrom objects seen todo
      | some o => reachedFrom objects (r :: seen) (o.refs ++ todo)
termination_by todo => ((unseen objects seen).length, todo.length)
decreasing_by
  · exact .right _ (by simp)
  · exact .right _ (by simp)
  · exact .left _ _ (length_unseen_lt _hr _ho)

/-- The objects that references lead to. -/
def reached (objects : Objects) (refs : List Ref) : List Ref :=
  reachedFrom objects [] refs

theorem subset_reachedFrom {objects : Objects} {seen todo : List Ref} {r : Ref}
    (h : r ∈ seen) : r ∈ reachedFrom objects seen todo := by
  fun_induction reachedFrom objects seen todo with
  | case1 => exact h
  | case2 _ _ _ _ ih => exact ih h
  | case3 _ _ _ _ _ ih => exact ih h
  | case4 _ _ _ _ _ _ ih => exact ih (by simp [h])

/-- What is to come is reached, if there is an object. -/
theorem subset_reached {objects : Objects} {seen todo : List Ref} {r : Ref} {o : Object}
    (h : r ∈ todo) (ho : objects.find? r = some o) : r ∈ reachedFrom objects seen todo := by
  fun_induction reachedFrom objects seen todo with
  | case1 => simp at h
  | case2 seen s todo hs ih =>
    rcases List.mem_cons.1 h with rfl | h
    · exact subset_reachedFrom hs
    · exact ih h
  | case3 seen s todo hs hn ih =>
    rcases List.mem_cons.1 h with rfl | h
    · simp_all
    · exact ih h
  | case4 seen s todo hs p hp ih =>
    rcases List.mem_cons.1 h with rfl | h
    · exact subset_reachedFrom (by simp)
    · exact ih (by simp [h])

/-- What a reached object refers to is reached, if it is so of what is seen already. -/
theorem closed_reachedFrom {objects : Objects} {seen todo : List Ref}
    (hseen : ∀ r ∈ seen, ∀ s ∈ refsAt objects r, (objects.find? s).isSome →
      s ∈ seen ∨ s ∈ todo)
    {r s : Ref} {o : Object} (hr : r ∈ reachedFrom objects seen todo)
    (hs : s ∈ refsAt objects r) (ho : objects.find? s = some o) :
    s ∈ reachedFrom objects seen todo := by
  fun_induction reachedFrom objects seen todo with
  | case1 seen =>
    rcases hseen r hr s hs (by simp [ho]) with h | h
    · exact h
    · simp at h
  | case2 seen t todo ht ih =>
    refine ih (fun a ha b hb hbo => ?_) hr
    rcases hseen a ha b hb hbo with h | h
    · exact .inl h
    · rcases List.mem_cons.1 h with rfl | h
      · exact .inl ht
      · exact .inr h
  | case3 seen t todo ht hn ih =>
    refine ih (fun a ha b hb hbo => ?_) hr
    rcases hseen a ha b hb hbo with h | h
    · exact .inl h
    · rcases List.mem_cons.1 h with rfl | h
      · simp_all
      · exact .inr h
  | case4 seen t todo ht p hp ih =>
    refine ih (fun a ha b hb hbo => ?_) hr
    rcases List.mem_cons.1 ha with rfl | ha
    · simp only [refsAt, hp, Option.map_some, Option.getD_some] at hb
      exact .inr (by simp [hb])
    · rcases hseen a ha b hb hbo with h | h
      · exact .inl (by simp [h])
      · rcases List.mem_cons.1 h with rfl | h
        · exact .inl (by simp)
        · exact .inr (by simp [h])

/-- What a reached object refers to is reached. -/
theorem closed_reached {objects : Objects} {refs : List Ref} {r s : Ref} {o : Object}
    (hr : r ∈ reached objects refs) (hs : s ∈ refsAt objects r)
    (ho : objects.find? s = some o) : s ∈ reached objects refs :=
  closed_reachedFrom (by simp) hr hs ho

end Waybill.Pdf
