/-
  Objects of a document, and their references renamed.

  The objects of a document stand in the order of their references, each with a reference of its
  own: `Objects.Ascending`.

  Statements: `Ascending.find?_eq_some` (an object is found by its reference), `Ascending.insert`
  and `ascending_objects` (documents that are read are in order); `same_iff` (equality of objects
  is decided); `rename_rename`, `set_renameEntries` and so on (renaming commutes with what is done
  to dictionaries).
-/
import Mathlib.Data.List.Pairwise
import Waybill.Pdf.Merge
import Waybill.Proofs.Store.Tables

namespace Waybill.Pdf

/-! ## Order -/

namespace Ref

theorem before_iff {a b : Ref} : a.before b ↔
    a.number < b.number ∨ a.number = b.number ∧ a.generation < b.generation := by
  simp [before]

theorem before_irrefl (a : Ref) : ¬a.before a := by
  simp [before]

theorem before_trans {a b c : Ref} (h : a.before b) (h' : b.before c) : a.before c := by
  rw [before_iff] at h h' ⊢
  omega

theorem before_of_ne {a b : Ref} (hne : a ≠ b) (h : ¬a.before b) : b.before a := by
  obtain ⟨m, i⟩ := a
  obtain ⟨n, j⟩ := b
  rw [ne_eq, Ref.mk.injEq] at hne
  rw [before_iff] at h ⊢
  dsimp only at h ⊢
  omega

end Ref

namespace Objects

/-- The objects stand in the order of their references. -/
def Ascending (objects : Objects) : Prop :=
  objects.Pairwise fun a b => a.1.before b.1

variable {objects : Objects}

/-- An object is found by its reference. -/
theorem Ascending.find?_eq_some (h : objects.Ascending) {r : Ref} {o : Object} :
    objects.find? r = some o ↔ (r, o) ∈ objects := by
  refine ⟨mem_of_find?, fun hmem => ?_⟩
  induction objects with
  | nil => cases hmem
  | cons head objects ih =>
    obtain ⟨s, p⟩ := head
    obtain ⟨hhead, htail⟩ := List.pairwise_cons.1 h
    rcases List.mem_cons.1 hmem with heq | hmem
    · cases heq
      simp [find?]
    · have hne : s ≠ r := fun e => Ref.before_irrefl r (e ▸ hhead _ hmem)
      rw [find?, if_neg hne]
      exact ih htail hmem

theorem Ascending.sublist {more : Objects} (h : more.Ascending) (hs : objects.Sublist more) :
    objects.Ascending := List.Pairwise.sublist hs h

theorem mem_insert {r : Ref} {o : Object} {e : Ref × Object} (h : e ∈ objects.insert r o) :
    e = (r, o) ∨ e ∈ objects := by
  induction objects with
  | nil => exact Or.inl (List.mem_singleton.1 h)
  | cons head objects ih =>
    obtain ⟨s, p⟩ := head
    unfold insert at h
    split at h
    · exact (List.mem_cons.1 h).imp_right (List.mem_cons_of_mem _)
    · split at h
      · exact List.mem_cons.1 h
      · rcases List.mem_cons.1 h with rfl | h
        · exact Or.inr List.mem_cons_self
        · exact (ih h).imp_right (List.mem_cons_of_mem _)

theorem Ascending.insert (h : objects.Ascending) (r : Ref) (o : Object) :
    (objects.insert r o).Ascending := by
  induction objects with
  | nil => exact List.pairwise_singleton ..
  | cons head objects ih =>
    obtain ⟨s, p⟩ := head
    obtain ⟨hhead, htail⟩ := List.pairwise_cons.1 h
    unfold Objects.insert
    split
    · next hs =>
      subst hs
      exact List.pairwise_cons.2 ⟨hhead, htail⟩
    · next hne =>
      split
      · next hbefore =>
        refine List.pairwise_cons.2 ⟨fun e he => ?_, h⟩
        rcases List.mem_cons.1 he with rfl | he
        · exact hbefore
        · exact Ref.before_trans hbefore (hhead e he)
      · next hbefore =>
        refine List.pairwise_cons.2 ⟨fun e he => ?_, ih htail⟩
        rcases mem_insert he with rfl | he
        · exact Ref.before_of_ne (Ne.symm hne) hbefore
        · exact hhead e he

theorem ascending_ofList (list : List (Ref × Object)) : (ofList list).Ascending := by
  unfold ofList
  have hstart : Ascending ([] : Objects) := .nil
  generalize ([] : Objects) = done at hstart
  induction list generalizing done with
  | nil => exact hstart
  | cons o list ih => exact ih _ (hstart.insert o.1 o.2)

theorem insert_of_before {r : Ref} (h : ∀ e ∈ objects, e.1.before r)
    (o : Object) : objects.insert r o = objects ++ [(r, o)] := by
  induction objects with
  | nil => rfl
  | cons e objects ih =>
    obtain ⟨s, p⟩ := e
    obtain ⟨hs, h⟩ := List.forall_mem_cons.1 h
    have hne : s ≠ r := by
      rintro rfl
      exact Ref.before_irrefl _ hs
    have hnot : ¬r.before s := fun hr => Ref.before_irrefl _ (Ref.before_trans hs hr)
    rw [insert, if_neg hne, if_neg hnot, ih h, List.cons_append]

/-- Objects in order stay as they are. -/
theorem ofList_eq_self (h : objects.Ascending) :
    ofList objects = objects := by
  have hall : ∀ more done : Objects, (done ++ more).Ascending →
      more.foldl (fun done o => insert o.1 o.2 done) done = done ++ more := by
    intro more
    induction more with
    | nil => simp
    | cons e more ih =>
      intro done hd
      obtain ⟨-, -, hcross⟩ := List.pairwise_append.1 hd
      rw [List.foldl_cons, insert_of_before fun d hmem => hcross d hmem e List.mem_cons_self]
      rw [List.append_cons] at hd
      rw [ih _ hd, List.append_assoc, List.singleton_append]
  exact hall objects [] h

/-- Changing objects leaves their order. -/
theorem Ascending.map (h : objects.Ascending) {f : Ref × Object → Ref × Object}
    (hf : ∀ e, (f e).1 = e.1) : Ascending (objects.map f) := by
  refine List.pairwise_map.2 (h.imp fun {a b} hab => ?_)
  rwa [hf, hf]

theorem find?_map (objects : Objects) (f : Ref → Object → Object) (r : Ref) :
    find? r (objects.map fun (s, o) => (s, f s o)) = (objects.find? r).map (f r) := by
  induction objects with
  | nil => rfl
  | cons head objects ih =>
    obtain ⟨s, o⟩ := head
    by_cases hs : s = r
    · subst hs
      simp [find?]
    · simpa [find?, hs] using ih

end Objects

theorem ascending_assembled (file : List Char) (version : String) (table : Table) (trailer : Dict) :
    (assembled file version table trailer).objects.Ascending :=
  (Objects.ascending_ofList _).map fun _ => rfl

/-- The objects of a document that is read stand in order. -/
theorem ascending_objects {file : ByteArray} {d : Document} (h : Document.ofBytes? file = .ok d) :
    d.objects.Ascending := by
  unfold Document.ofBytes? at h
  dsimp only at h
  split at h
  · split at h
    · simp only [except_bind_eq_ok] at h
      obtain ⟨place, -, ⟨table, trailer⟩, -, table', -, h⟩ := h
      obtain rfl := Except.ok.inj h
      exact ascending_assembled _ _ _ _
    · cases h
  · cases h

/-! ## Equality -/

mutual

/-- Whether two objects are the same. -/
def Object.same : Object → Object → Bool
  | .null, .null => true
  | .bool a, .bool b => a == b
  | .int a, .int b => a == b
  | .real a, .real b => a == b
  | .name a, .name b => a == b
  | .string a x, .string b y => a == b && x == y
  | .array a, .array b => sameItems a b
  | .dict a, .dict b => sameEntries a b
  | .stream a x, .stream b y => sameEntries a b && x == y
  | .ref a, .ref b => a == b
  | _, _ => false

/-- Whether two lists of items are the same. -/
def sameItems : List Object → List Object → Bool
  | [], [] => true
  | a :: as, b :: bs => a.same b && sameItems as bs
  | _, _ => false

/-- Whether two lists of entries are the same. -/
def sameEntries : List (String × Object) → List (String × Object) → Bool
  | [], [] => true
  | (m, a) :: as, (n, b) :: bs => m == n && a.same b && sameEntries as bs
  | _, _ => false

end

mutual

theorem same_iff (a b : Object) : a.same b ↔ a = b := by
  cases a with
  | array a => cases b <;> simp [Object.same, sameItems_iff a]
  | dict a => cases b <;> simp [Object.same, sameEntries_iff a]
  | stream a x => cases b <;> simp [Object.same, sameEntries_iff a]
  | _ => cases b <;> simp [Object.same]

theorem sameItems_iff (a b : List Object) : sameItems a b ↔ a = b := by
  cases a with
  | nil => cases b <;> simp [sameItems]
  | cons x a => cases b <;> simp [sameItems, same_iff x, sameItems_iff a]

theorem sameEntries_iff (a b : Dict) : sameEntries a b ↔ a = b := by
  cases a with
  | nil => cases b <;> simp [sameEntries]
  | cons e a =>
    obtain ⟨m, x⟩ := e
    cases b <;> simp [sameEntries, Prod.ext_iff, same_iff x, sameEntries_iff a]

end

instance : DecidableEq Object := fun a b => decidable_of_iff _ (same_iff a b)

deriving instance DecidableEq for Document

/-! ## References in dictionaries -/

theorem mem_refs_ref (r : Ref) : r ∈ (Object.ref r).refs := by
  simp [Object.refs]

theorem mem_refsOfItems {items : List Object} {o : Object} {r : Ref} (ho : o ∈ items)
    (hr : r ∈ o.refs) : r ∈ refsOfItems items := by
  induction items with
  | nil => cases ho
  | cons p items ih =>
    rw [refsOfItems, List.mem_append]
    rcases List.mem_cons.1 ho with rfl | ho
    · exact Or.inl hr
    · exact Or.inr (ih ho)

theorem mem_refsOfEntries {d : Dict} {name : String} {o : Object} {r : Ref}
    (h : d.get? name = some o) (hr : r ∈ o.refs) : r ∈ refsOfEntries d := by
  induction d with
  | nil => cases h
  | cons e d ih =>
    obtain ⟨n, p⟩ := e
    rw [Dict.get?] at h
    rw [refsOfEntries, List.mem_append]
    split at h
    · obtain rfl := Option.some.inj h
      exact Or.inl hr
    · exact Or.inr (ih h)

theorem mem_refsOfEntries_set {d : Dict} {name : String} {v : Object} {r : Ref}
    (h : r ∈ refsOfEntries (d.set name v)) : r ∈ v.refs ∨ r ∈ refsOfEntries d := by
  induction d with
  | nil => simpa [Dict.set, refsOfEntries] using h
  | cons e d ih =>
    obtain ⟨n, p⟩ := e
    rw [Dict.set] at h
    split at h
    · rw [refsOfEntries, List.mem_append] at h
      exact h.imp_right fun h => by simp [refsOfEntries, h]
    · rw [refsOfEntries, List.mem_append] at h
      rcases h with h | h
      · exact Or.inr (by simp [refsOfEntries, h])
      · exact (ih h).imp_right fun h => by simp [refsOfEntries, h]

theorem mem_refsOfEntries_of_erase {d : Dict} (name : String) {r : Ref}
    (h : r ∈ refsOfEntries (d.erase name)) : r ∈ refsOfEntries d := by
  induction d with
  | nil => cases h
  | cons e d ih =>
    obtain ⟨n, o⟩ := e
    rw [refsOfEntries, List.mem_append]
    by_cases hn : n = name
    · rw [Dict.erase, List.filter_cons_of_neg (by simpa using hn)] at h
      exact Or.inr (ih h)
    · rw [Dict.erase, List.filter_cons_of_pos (by simpa using hn), refsOfEntries,
        List.mem_append] at h
      exact h.imp_right ih

theorem ref?_eq_some {o : Object} {r : Ref} : o.ref? = some r ↔ o = .ref r := by
  cases o <;> simp [Object.ref?]

theorem array?_eq_some {o : Object} {items : List Object} :
    o.array? = some items ↔ o = .array items := by
  cases o <;> simp [Object.array?]

theorem dict?_eq_some {o : Object} {d : Dict} : o.dict? = some d ↔ o = .dict d := by
  cases o <;> simp [Object.dict?]

/-! ## References renamed -/

section
variable (f g : Ref → Ref)

theorem renameItems_eq_map (items : List Object) :
    renameItems f items = items.map (·.rename f) := by
  induction items with
  | nil => rfl
  | cons o items ih => exact congrArg (o.rename f :: ·) ih

theorem renameEntries_eq_map (d : Dict) :
    renameEntries f d = d.map fun e => (e.1, e.2.rename f) := by
  induction d with
  | nil => rfl
  | cons e d ih => exact congrArg ((e.1, e.2.rename f) :: ·) ih

mutual

theorem rename_rename (o : Object) : (o.rename f).rename g = o.rename (g ∘ f) := by
  cases o with
  | ref target => rfl
  | array items => simpa [Object.rename] using renameItems_renameItems items
  | dict entries => simpa [Object.rename] using renameEntries_renameEntries entries
  | stream entries content => simpa [Object.rename] using renameEntries_renameEntries entries
  | _ => rfl

theorem renameItems_renameItems (items : List Object) :
    renameItems g (renameItems f items) = renameItems (g ∘ f) items := by
  cases items with
  | nil => rfl
  | cons o items => simp [renameItems, rename_rename o, renameItems_renameItems items]

theorem renameEntries_renameEntries (d : Dict) :
    renameEntries g (renameEntries f d) = renameEntries (g ∘ f) d := by
  cases d with
  | nil => rfl
  | cons e d => simp [renameEntries, rename_rename e.2, renameEntries_renameEntries d]

end

variable (o : Object) (d : Dict) (name : String)

theorem dict?_rename : (o.rename f).dict? = o.dict?.map (renameEntries f) := by
  cases o <;> rfl

theorem ref?_rename : (o.rename f).ref? = o.ref?.map f := by
  cases o <;> rfl

theorem array?_rename : (o.rename f).array? = o.array?.map (List.map (·.rename f)) := by
  cases o with
  | array items => exact congrArg some (renameItems_eq_map f items)
  | _ => rfl

theorem name?_rename : (o.rename f).name? = o.name? := by
  cases o <;> rfl

theorem typeName?_renameEntries : Dict.typeName? (renameEntries f d) = d.typeName? := by
  unfold Dict.typeName?
  rw [get?_renameEntries]
  cases d.get? "Type" with
  | none => rfl
  | some o => exact name?_rename f o

theorem typeName?_rename : (o.rename f).typeName? = o.typeName? := by
  unfold Object.typeName?
  rw [dict?_rename]
  cases o.dict? with
  | none => rfl
  | some d => exact typeName?_renameEntries f d

theorem has_renameEntries : Dict.has name (renameEntries f d) = d.has name := by
  simp [Dict.has, get?_renameEntries]

theorem set_renameEntries (v : Object) :
    Dict.set name (v.rename f) (renameEntries f d) = renameEntries f (d.set name v) := by
  induction d with
  | nil => rfl
  | cons e d ih =>
    obtain ⟨n, o⟩ := e
    by_cases h : n = name <;> simp [renameEntries, Dict.set, h, ih]

theorem erase_renameEntries :
    Dict.erase name (renameEntries f d) = renameEntries f (d.erase name) := by
  rw [renameEntries_eq_map, renameEntries_eq_map, Dict.erase, Dict.erase, List.filter_map]
  rfl

theorem parent?_renameEntries : Dict.parent? (renameEntries f d) = d.parent?.map f := by
  unfold Dict.parent?
  rw [get?_renameEntries]
  cases d.get? "Parent" with
  | none => rfl
  | some o => exact ref?_rename f o

/-- A page takes over the renamed attributes of a renamed node. -/
theorem inherit_renameEntries (node : Dict) :
    inherit (renameEntries f node) (renameEntries f d) name =
      renameEntries f (inherit node d name) := by
  unfold inherit
  rw [has_renameEntries, get?_renameEntries]
  split
  · rfl
  · cases node.get? name with
    | none => rfl
    | some v => exact set_renameEntries f d name v

theorem foldl_inherit_renameEntries (node : Dict) (names : List String) :
    names.foldl (inherit (renameEntries f node)) (renameEntries f d) =
      renameEntries f (names.foldl (inherit node) d) := by
  induction names generalizing d with
  | nil => rfl
  | cons name names ih =>
    rw [List.foldl_cons, List.foldl_cons, inherit_renameEntries, ih]

end

theorem erase_set (name : String) (v : Object) (d : Dict) :
    (d.set name v).erase name = d.erase name := by
  induction d with
  | nil => simp [Dict.set, Dict.erase]
  | cons e d ih =>
    obtain ⟨n, o⟩ := e
    by_cases h : n = name
    · simp [Dict.set, Dict.erase, h]
    · simpa [Dict.set, Dict.erase, h] using ih

end Waybill.Pdf
