/-
  A document with its objects numbered anew.

  Each object gets a number of its own.  References to objects that are there follow these, in all
  that the trailer leads to; a reference to no object stays, and an object may come to have its
  number.

  * `Document.Led`: the trailer leads to the object of a reference;
  * `Document.Captured`: a reference that leads to no object leads to one afterwards.

  Statements: `renamed_injective` (no two objects get one number), `numbers_renumber` (the numbers
  that are given), `find?_renumber` (an object that the trailer leads to is found with its
  references renamed), `find?_renumber_of_not_captured` (so is what is not there, unless an object
  has come in its place), `exists_of_find?_renumber` (every object was there before).
-/
import Waybill.Proofs.Pdf.Objects

namespace Waybill.Pdf

/-! ## New numbers -/

variable {first : Nat} {objects : Objects} {r s : Ref} {o p : Object}

theorem renamed_cons (first : Nat) (s : Ref) (p : Object) (objects : Objects) (r : Ref) :
    renamed first ((s, p) :: objects) r =
      if r = s then ⟨first, s.generation⟩ else renamed (first + 1) objects r := by
  change (((s, ⟨first, s.generation⟩) :: numbering (first + 1) objects).lookup r).getD r = _
  rw [List.lookup_cons]
  by_cases h : r = s
  · simp [h]
  · rw [beq_eq_false_iff_ne.2 h, if_neg h]
    rfl

/-- A reference to no object stays as it is. -/
theorem renamed_of_missing (h : objects.find? r = none) : renamed first objects r = r := by
  induction objects generalizing first with
  | nil => rfl
  | cons head objects ih =>
    obtain ⟨s, p⟩ := head
    rw [Objects.find?] at h
    split at h
    · cases h
    · next hne => rw [renamed_cons, if_neg (Ne.symm hne), ih h]

theorem mem_moved_of_mem (first : Nat) (ho : objects.Ascending) (h : (r, o) ∈ objects) :
    (renamed first objects r, o) ∈ moved first objects := by
  induction objects generalizing first with
  | nil => cases h
  | cons head objects ih =>
    obtain ⟨s, p⟩ := head
    obtain ⟨hhead, htail⟩ := List.pairwise_cons.1 ho
    rw [renamed_cons]
    rcases List.mem_cons.1 h with heq | h
    · cases heq
      rw [if_pos rfl]
      exact List.mem_cons_self
    · have hne : r ≠ s := fun e => Ref.before_irrefl s (e ▸ hhead _ h)
      rw [if_neg hne]
      exact List.mem_cons_of_mem _ (ih _ htail h)

theorem mem_of_mem_moved (ho : objects.Ascending) (h : (s, o) ∈ moved first objects) :
    ∃ r, (r, o) ∈ objects ∧ s = renamed first objects r := by
  induction objects generalizing first with
  | nil => cases h
  | cons head objects ih =>
    obtain ⟨t, p⟩ := head
    obtain ⟨hhead, htail⟩ := List.pairwise_cons.1 ho
    rcases List.mem_cons.1 h with heq | h
    · cases heq
      exact ⟨t, List.mem_cons_self, by rw [renamed_cons, if_pos rfl]⟩
    · obtain ⟨r, hr, rfl⟩ := ih htail h
      have hne : r ≠ t := fun e => Ref.before_irrefl t (e ▸ hhead _ hr)
      exact ⟨r, List.mem_cons_of_mem _ hr, by rw [renamed_cons, if_neg hne]⟩

theorem ascending_moved (first : Nat) (objects : Objects) : (moved first objects).Ascending := by
  induction objects generalizing first with
  | nil => exact .nil
  | cons head objects ih =>
    refine List.pairwise_cons.2 ⟨fun e he => ?_, ih (first + 1)⟩
    exact Ref.before_iff.2 (Or.inl (number_moved he).1)

/-- No two objects get one number. -/
theorem renamed_injective (ho : objects.Ascending) (hr : (r, o) ∈ objects) (hs : (s, p) ∈ objects)
    (h : renamed first objects r = renamed first objects s) : r = s := by
  induction objects generalizing first with
  | nil => cases hr
  | cons head objects ih =>
    obtain ⟨t, q⟩ := head
    obtain ⟨hhead, htail⟩ := List.pairwise_cons.1 ho
    -- the numbers in the tail are beyond that of the head
    have hbeyond : ∀ {r o}, (r, o) ∈ objects →
        renamed (first + 1) objects r ≠ ⟨first, t.generation⟩ :=
      fun hr e => by
        have hnumber := (number_moved (mem_moved_of_mem (first + 1) htail hr)).1
        rw [e] at hnumber
        exact Nat.not_succ_le_self first hnumber
    rw [renamed_cons, renamed_cons] at h
    rcases List.mem_cons.1 hr with heq | hr' <;> rcases List.mem_cons.1 hs with heq' | hs'
    · exact (congrArg Prod.fst heq).trans (congrArg Prod.fst heq').symm
    · cases heq
      by_cases hst : s = r
      · exact hst.symm
      · rw [if_pos rfl, if_neg hst] at h
        exact (hbeyond hs' h.symm).elim
    · cases heq'
      by_cases hrs : r = s
      · exact hrs
      · rw [if_pos rfl, if_neg hrs] at h
        exact (hbeyond hr' h).elim
    · have hrt : r ≠ t := fun e => Ref.before_irrefl t (e ▸ hhead _ hr')
      have hst : s ≠ t := fun e => Ref.before_irrefl t (e ▸ hhead _ hs')
      rw [if_neg hrt, if_neg hst] at h
      exact ih htail hr' hs' h

/-! ## Numbered documents -/

namespace Document

/-- The trailer leads to the object of a reference. -/
inductive Led (d : Document) : Ref → Prop
  | trailer {r : Ref} (hr : r ∈ refsOfEntries d.trailer) (ho : (d.find? r).isSome) : Led d r
  | next {r s : Ref} {o : Object} (h : Led d r) (ho : d.find? r = some o) (hs : s ∈ o.refs)
    (hs' : (d.find? s).isSome) : Led d s

theorem Led.isSome {d : Document} (h : d.Led r) : (d.find? r).isSome := by
  cases h <;> assumption

variable {d : Document} {n : Nat}

/-- The reference leads, perhaps over others, to no object, and to one after the numbering: an
    object has got the number that was free. -/
inductive Captured (d : Document) (n : Nat) : Ref → Prop
  | missing {r : Ref} (h : d.find? r = none) (hnew : ((d.renumber n).find? r).isSome) :
    Captured d n r
  | next {r s : Ref} (h : d.find? r = some (.ref s)) (hs : Captured d n s) : Captured d n r

/-- What the trailer of the numbered document leads to. -/
def led (d : Document) (n : Nat) : List Ref :=
  reached ((moved n d.objects).map fun (r, o) => (r, o.rename (renamed n d.objects)))
    (refsOfEntries (renameEntries (renamed n d.objects) d.trailer))

theorem find?_renumber_eq (d : Document) (n : Nat) (r : Ref) :
    (d.renumber n).find? r = ((moved n d.objects).find? r).map fun o =>
      if r ∈ d.led n then o.rename (renamed n d.objects) else o :=
  Objects.find?_map (moved n d.objects)
    (fun r o => if r ∈ d.led n then o.rename (renamed n d.objects) else o) r

theorem ascending_renumber (d : Document) (n : Nat) : (d.renumber n).objects.Ascending :=
  (ascending_moved n d.objects).map fun _ => rfl

/-- The numbers that the objects have. -/
theorem numbers_renumber (h : (r, o) ∈ (d.renumber n).objects) :
    n ≤ r.number ∧ r.number < n + d.objects.length := by
  obtain ⟨⟨s, p⟩, hmem, heq⟩ := List.mem_map.1 h
  obtain rfl : s = r := congrArg Prod.fst heq
  exact number_moved hmem

variable (hd : d.objects.Ascending)
include hd

/-- Every object was there before. -/
theorem exists_of_find?_renumber (h : (d.renumber n).find? s = some o) :
    ∃ r p, d.find? r = some p ∧ s = renamed n d.objects r ∧ o.typeName? = p.typeName? := by
  rw [find?_renumber_eq, Option.map_eq_some_iff] at h
  obtain ⟨p, hp, rfl⟩ := h
  obtain ⟨r, hr, rfl⟩ := mem_of_mem_moved hd (Objects.mem_of_find? hp)
  refine ⟨r, p, hd.find?_eq_some.2 hr, rfl, ?_⟩
  split
  · exact typeName?_rename _ p
  · rfl

/-- Every object is there, with its type. -/
theorem exists_find?_renumber (h : d.find? r = some p) :
    ∃ o, (d.renumber n).find? (renamed n d.objects r) = some o ∧ o.typeName? = p.typeName? := by
  have hmem := mem_moved_of_mem n hd (Objects.mem_of_find? h)
  rw [find?_renumber_eq, (ascending_moved n d.objects).find?_eq_some.2 hmem]
  refine ⟨_, rfl, ?_⟩
  split
  · exact typeName?_rename _ p
  · rfl

/-- What the trailer leads to, it leads to under the new number. -/
theorem Led.mem_led (h : d.Led r) : renamed n d.objects r ∈ d.led n := by
  have hall : ∀ {r o}, d.find? r = some o → Objects.find? (renamed n d.objects r)
      ((moved n d.objects).map fun (r, o) => (r, o.rename (renamed n d.objects))) =
        some (o.rename (renamed n d.objects)) := fun {r o} hr => by
    have hmem := mem_moved_of_mem n hd (Objects.mem_of_find? hr)
    rw [Objects.find?_map (moved n d.objects) fun _ o => o.rename (renamed n d.objects),
      (ascending_moved n d.objects).find?_eq_some.2 hmem]
    rfl
  induction h with
  | trailer hr ho =>
    obtain ⟨o, ho⟩ := Option.isSome_iff_exists.1 ho
    refine subset_reached ?_ (hall ho)
    rw [refsOfEntries_rename]
    exact List.mem_map_of_mem hr
  | next h ho hs hs' ih =>
    obtain ⟨p, hp⟩ := Option.isSome_iff_exists.1 hs'
    refine closed_reached ih ?_ (hall hp)
    rw [refsAt, hall ho, Option.map_some, Option.getD_some, refs_rename]
    exact List.mem_map_of_mem hs

/-- An object that the trailer leads to is found with its references renamed. -/
theorem find?_renumber (h : d.Led r) : (d.renumber n).find? (renamed n d.objects r) =
    (d.find? r).map (·.rename (renamed n d.objects)) := by
  obtain ⟨o, ho⟩ := Option.isSome_iff_exists.1 h.isSome
  have hmem := mem_moved_of_mem n hd (Objects.mem_of_find? ho)
  rw [find?_renumber_eq, (ascending_moved n d.objects).find?_eq_some.2 hmem, ho, Option.map_some,
    if_pos (h.mem_led hd)]
  rfl

/-- What no object has come in the place of is as it was, be it an object or none. -/
theorem find?_renumber_of_not_captured (hled : (d.find? r).isSome → d.Led r)
    (h : ¬d.Captured n r) : (d.renumber n).find? (renamed n d.objects r) =
      (d.find? r).map (·.rename (renamed n d.objects)) := by
  cases ho : d.find? r with
  | some o => rw [find?_renumber hd (hled (by simp [ho])), ho]
  | none =>
    rw [renamed_of_missing ho, Option.map_none]
    by_contra hnew
    exact h (.missing ho (Option.isSome_iff_ne_none.2 hnew))

end Document

end Waybill.Pdf
