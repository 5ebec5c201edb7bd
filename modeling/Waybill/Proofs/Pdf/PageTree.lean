/-
  The page tree of a document that is numbered anew.

  * `Document.InTree`: the page tree has a node or a page at a reference;
  * `Document.Intact`: no reference of the page tree is captured;
  * `Document.above` are the nodes above, `Document.attribute?` is an entry of a page, its own or
    from above;
  * `Document.Secure`: no reference at which attributes of a page are looked for is captured.

  Statements: `InTree.led` (the trailer leads to the page tree), `pages_renumber` (the pages keep
  their order), `page?_renumber` and `entry_page?_renumber` (a page takes its attributes from the
  nodes above it as before), `led_of_mem_page?` (the trailer leads to what a page refers to).
-/
import Waybill.Proofs.Pdf.Numbering

namespace Waybill.Pdf

namespace Document

/-! ## The page tree -/

/-- The page tree has a node or a page at a reference: at its root, or among the kids of a
    node. -/
inductive InTree (d : Document) : Ref → Prop
  | root {r : Ref} (h : d.pagesRef? = some r) : InTree d r
  | kid {r s : Ref} (h : InTree d r)
    (hnode : d.pagesRef? = some r ∨ (d.dict? r).bind Dict.typeName? = some "Pages")
    (hs : .ref s ∈ d.kids r) : InTree d s

/-- No reference of the page tree is captured. -/
structure Intact (d : Document) (n : Nat) : Prop where
  catalog : ∀ r, d.trailer.get? "Root" = some (.ref r) → ¬d.Captured n r
  tree : ∀ r, d.InTree r → ¬d.Captured n r

/-- Every reference is to an object. -/
def Closed (d : Document) : Prop :=
  (∀ r ∈ refsOfEntries d.trailer, (d.find? r).isSome) ∧
    ∀ e ∈ d.objects, ∀ r ∈ e.2.refs, (d.find? r).isSome

instance (d : Document) : Decidable d.Closed := inferInstanceAs (Decidable (_ ∧ _))

section
variable {d : Document} {n : Nat} {r s : Ref}

theorem target?_of_not_ref (d : Document) (k : Nat) {o : Object} (h : ∀ s, o ≠ .ref s) :
    d.target? k o = some o := by
  cases o with
  | ref s => exact (h s rfl).elim
  | _ => simp [target?]

theorem dict?_of_find? {e : Dict} (h : d.find? r = some (.dict e)) : d.dict? r = some e := by
  rw [dict?, follow?, h, Option.bind_some, target?_of_not_ref d 128 (by simp)]
  rfl

theorem isSome_of_dict? {e : Dict} (h : d.dict? r = some e) : (d.find? r).isSome := by
  obtain ⟨p, hp, -⟩ := Option.bind_eq_some_iff.1 h
  obtain ⟨o, ho, -⟩ := Option.bind_eq_some_iff.1 hp
  simp [ho]

/-- Where references end an object stands, and what passes on from one to the next holds there. -/
theorem exists_of_target? {P : Ref → Prop} {k : Nat} {o p : Object}
    (hnext : ∀ {r s}, P r → d.find? r = some (.ref s) → (d.find? s).isSome → P s)
    (ho : ∃ r, P r ∧ d.find? r = some o) (h : d.target? k o = some p) :
    ∃ r, P r ∧ d.find? r = some p := by
  induction k generalizing o with
  | zero =>
    by_cases href : ∃ s, o = .ref s
    · obtain ⟨s, rfl⟩ := href
      cases h
    · rw [target?_of_not_ref d 0 fun s e => href ⟨s, e⟩] at h
      exact Option.some.inj h ▸ ho
  | succ k ih =>
    by_cases href : ∃ s, o = .ref s
    · obtain ⟨s, rfl⟩ := href
      rw [target?, Option.bind_eq_some_iff] at h
      obtain ⟨q, hq, h⟩ := h
      obtain ⟨r, hr, hfind⟩ := ho
      exact ih ⟨s, hnext hr hfind (by simp [hq]), hq⟩ h
    · rw [target?_of_not_ref d _ fun s e => href ⟨s, e⟩] at h
      exact Option.some.inj h ▸ ho

theorem exists_of_dict? {P : Ref → Prop} {e : Dict}
    (hnext : ∀ {r s}, P r → d.find? r = some (.ref s) → (d.find? s).isSome → P s) (hr : P r)
    (h : d.dict? r = some e) : ∃ t, P t ∧ d.find? t = some (.dict e) := by
  obtain ⟨p, hp, hdict⟩ := Option.bind_eq_some_iff.1 h
  obtain ⟨o, ho, htarget⟩ := Option.bind_eq_some_iff.1 hp
  rw [dict?_eq_some.1 hdict] at htarget
  exact exists_of_target? hnext ⟨r, hr, ho⟩ htarget

/-- The trailer leads to what a dictionary refers to that it leads to. -/
theorem Led.of_mem_dict {e : Dict} (hr : d.Led r) (h : d.dict? r = some e)
    (hs : s ∈ refsOfEntries e) (hs' : (d.find? s).isSome) : d.Led s := by
  obtain ⟨t, ht, hfind⟩ :=
    exists_of_dict? (fun hr hfind => hr.next hfind (mem_refs_ref _)) hr h
  exact ht.next hfind hs hs'

theorem catalog?_eq_some {c : Dict} (h : d.catalog? = some c) :
    ∃ r, d.trailer.get? "Root" = some (.ref r) ∧ d.dict? r = some c := by
  simp only [catalog?, Option.bind_eq_some_iff, ref?_eq_some] at h
  obtain ⟨r, ⟨_, hroot, rfl⟩, hc⟩ := h
  exact ⟨r, hroot, hc⟩

theorem pagesRef?_eq_some (h : d.pagesRef? = some r) :
    ∃ c, d.catalog? = some c ∧ c.get? "Pages" = some (.ref r) := by
  simp only [pagesRef?, Option.bind_eq_some_iff, ref?_eq_some] at h
  obtain ⟨_, ⟨c, hc, hpages⟩, rfl⟩ := h
  exact ⟨c, hc, hpages⟩

theorem mem_kids {o : Object} (h : o ∈ d.kids r) :
    ∃ e items, d.dict? r = some e ∧ e.get? "Kids" = some (.array items) ∧ o ∈ items := by
  unfold kids at h
  cases hkids : ((d.dict? r).bind (Dict.get? "Kids")).bind Object.array? with
  | none =>
    rw [hkids] at h
    cases h
  | some items =>
    rw [hkids] at h
    simp only [Option.bind_eq_some_iff, array?_eq_some] at hkids
    obtain ⟨_, ⟨e, he, hitems⟩, rfl⟩ := hkids
    exact ⟨e, items, he, hitems, h⟩

theorem parent?_eq_some {e : Dict} (h : e.parent? = some s) : e.get? "Parent" = some (.ref s) := by
  obtain ⟨o, ho, href⟩ := Option.bind_eq_some_iff.1 h
  rwa [ref?_eq_some.1 href] at ho

/-- The trailer leads to the node above. -/
theorem Led.parent {node : Dict} (hr : d.Led r) (hnode : d.dict? r = some node) {s : Ref}
    (hs : node.parent? = some s) (hs' : (d.find? s).isSome) : d.Led s :=
  hr.of_mem_dict hnode (mem_refsOfEntries (parent?_eq_some hs) (mem_refs_ref _)) hs'

/-- A reference that leads to an object leads on to objects. -/
theorem Closed.not_captured (h : d.Closed) (hr : (d.find? r).isSome) : ¬d.Captured n r := by
  intro hcaptured
  induction hcaptured with
  | missing hnone => simp [hnone] at hr
  | next hfind _ ih =>
    exact ih (h.2 _ (Objects.mem_of_find? hfind) _ (mem_refs_ref _))

theorem Closed.isSome_of_mem_dict {e : Dict} (h : d.Closed) (hdict : d.dict? r = some e)
    (hs : s ∈ refsOfEntries e) : (d.find? s).isSome := by
  obtain ⟨t, -, ht⟩ := exists_of_dict? (P := fun _ => True) (fun _ _ _ => trivial) trivial hdict
  exact h.2 _ (Objects.mem_of_find? ht) s hs

/-- A document in which every reference is to an object is intact. -/
theorem Closed.intact (h : d.Closed) (n : Nat) : d.Intact n where
  catalog r hroot := h.not_captured (h.1 r (mem_refsOfEntries hroot (mem_refs_ref _)))
  tree r hr := by
    refine h.not_captured ?_
    cases hr with
    | root hpages =>
      obtain ⟨c, hc, hpages⟩ := pagesRef?_eq_some hpages
      obtain ⟨top, -, hdict⟩ := catalog?_eq_some hc
      exact h.isSome_of_mem_dict hdict (mem_refsOfEntries hpages (mem_refs_ref _))
    | kid _ _ hs =>
      obtain ⟨e, items, he, hitems, hmem⟩ := mem_kids hs
      exact h.isSome_of_mem_dict he (mem_refsOfEntries hitems (mem_refsOfItems hmem
        (mem_refs_ref _)))

/-- The trailer leads to the objects of the page tree. -/
theorem InTree.led (h : d.InTree r) (hr : (d.find? r).isSome) : d.Led r := by
  induction h with
  | root h =>
    obtain ⟨c, hc, hpages⟩ := pagesRef?_eq_some h
    obtain ⟨top, htop, hdict⟩ := catalog?_eq_some hc
    have hled : d.Led top :=
      .trailer (mem_refsOfEntries htop (mem_refs_ref _)) (isSome_of_dict? hdict)
    exact hled.of_mem_dict hdict (mem_refsOfEntries hpages (mem_refs_ref _)) hr
  | kid h hnode hs ih =>
    obtain ⟨e, items, he, hitems, hmem⟩ := mem_kids hs
    refine (ih (isSome_of_dict? he)).of_mem_dict he (mem_refsOfEntries hitems ?_) hr
    exact mem_refsOfItems hmem (mem_refs_ref _)

end

/-! ## Pages -/

theorem forall_mem_outer {P : List Object → Prop} {rest : List Object}
    {around : List (List Object)} (hrest : P rest) (haround : ∀ kids ∈ around, P kids) :
    ∀ kids ∈ outer rest around, P kids := by
  unfold outer
  split
  · exact haround
  · exact List.forall_mem_cons.2 ⟨hrest, haround⟩

section
variable {d : Document} {n : Nat} {r : Ref} (hd : d.objects.Ascending)
include hd

theorem target?_renumber {k : Nat} {o : Object}
    (ho : ∀ s, o = .ref s → ((d.find? s).isSome → d.Led s) ∧ ¬d.Captured n s) :
    (d.renumber n).target? k (o.rename (renamed n d.objects)) =
      (d.target? k o).map (·.rename (renamed n d.objects)) := by
  induction k generalizing o with
  | zero => cases o <;> simp [target?, Object.rename]
  | succ k ih =>
    by_cases href : ∃ s, o = .ref s
    · obtain ⟨s, rfl⟩ := href
      obtain ⟨hled, hs⟩ := ho s rfl
      rw [Object.rename, target?, target?, find?_renumber_of_not_captured hd hled hs]
      cases hp : d.find? s with
      | none => rfl
      | some p =>
        refine ih fun t ht => ⟨fun ht' => ?_, fun hcaptured => hs (.next (ht ▸ hp) hcaptured)⟩
        exact (hled (by simp [hp])).next (ht ▸ hp) (mem_refs_ref _) ht'
    · cases o with
      | ref s => exact (href ⟨s, rfl⟩).elim
      | _ => simp [target?, Object.rename]

theorem dict?_renumber (hled : (d.find? r).isSome → d.Led r) (hr : ¬d.Captured n r) :
    (d.renumber n).dict? (renamed n d.objects r) =
      (d.dict? r).map (renameEntries (renamed n d.objects)) := by
  have htarget := target?_renumber (n := n) (k := 129) (o := .ref r) hd fun s hs => by
    cases hs
    exact ⟨hled, hr⟩
  simp only [Object.rename, target?] at htarget
  unfold dict? follow?
  rw [htarget]
  cases (d.find? r).bind (d.target? 128) with
  | none => rfl
  | some p => exact dict?_rename _ p

variable (hi : d.Intact n)
include hi

theorem catalog?_renumber : (d.renumber n).catalog? =
    d.catalog?.map (renameEntries (renamed n d.objects)) := by
  have htrailer : (d.renumber n).trailer = renameEntries (renamed n d.objects) d.trailer := rfl
  unfold catalog?
  rw [htrailer, get?_renameEntries]
  cases hroot : d.trailer.get? "Root" with
  | none => rfl
  | some o =>
    rw [Option.map_some, Option.bind_some, Option.bind_some, ref?_rename]
    cases href : o.ref? with
    | none => rfl
    | some r =>
      rw [ref?_eq_some.1 href] at hroot
      exact dict?_renumber hd (.trailer (mem_refsOfEntries hroot (mem_refs_ref _)))
        (hi.catalog r hroot)

theorem pagesRef?_renumber :
    (d.renumber n).pagesRef? = d.pagesRef?.map (renamed n d.objects) := by
  unfold pagesRef?
  rw [catalog?_renumber hd hi]
  cases d.catalog? with
  | none => rfl
  | some c =>
    rw [Option.map_some, Option.bind_some, Option.bind_some, get?_renameEntries]
    cases c.get? "Pages" with
    | none => rfl
    | some o => exact ref?_rename _ o

theorem dict?_renumber_tree (h : d.InTree r) : (d.renumber n).dict? (renamed n d.objects r) =
    (d.dict? r).map (renameEntries (renamed n d.objects)) :=
  dict?_renumber hd h.led (hi.tree r h)

theorem typeName?_renumber_tree (h : d.InTree r) :
    ((d.renumber n).dict? (renamed n d.objects r)).bind Dict.typeName? =
      (d.dict? r).bind Dict.typeName? := by
  rw [dict?_renumber_tree hd hi h]
  cases d.dict? r with
  | none => rfl
  | some e => exact typeName?_renameEntries _ e

theorem kids_renumber (h : d.InTree r) : (d.renumber n).kids (renamed n d.objects r) =
    (d.kids r).map (·.rename (renamed n d.objects)) := by
  unfold kids
  rw [dict?_renumber_tree hd hi h]
  cases d.dict? r with
  | none => rfl
  | some e =>
    rw [Option.map_some, Option.bind_some, Option.bind_some, get?_renameEntries]
    cases e.get? "Kids" with
    | none => rfl
    | some o =>
      rw [Option.map_some, Option.bind_some, Option.bind_some, array?_rename]
      cases o.array? <;> rfl

theorem pagesFrom_renumber (k : Nat) (kids : List Object) (around : List (List Object))
    (hkids : ∀ s, .ref s ∈ kids → d.InTree s)
    (haround : ∀ kids ∈ around, ∀ s, .ref s ∈ kids → d.InTree s) :
    (d.renumber n).pagesFrom k (kids.map (·.rename (renamed n d.objects)))
        (around.map (List.map (·.rename (renamed n d.objects)))) =
      (d.pagesFrom k kids around).map (renamed n d.objects) := by
  fun_induction d.pagesFrom k kids around with
  | case1 => simp [pagesFrom]
  | case2 => simp [pagesFrom]
  | case3 k kids around ih =>
    obtain ⟨hkids, haround⟩ := List.forall_mem_cons.1 haround
    rw [List.map_nil, List.map_cons, pagesFrom]
    exact ih hkids haround
  | case4 k kid rest around hkid ih =>
    rw [List.map_cons, pagesFrom, ref?_rename, hkid]
    exact ih (fun s hs => hkids s (List.mem_cons_of_mem _ hs)) haround
  | case5 k kid rest around s hkid htype ih =>
    have hs : d.InTree s := hkids s (ref?_eq_some.1 hkid ▸ List.mem_cons_self)
    rw [List.map_cons, pagesFrom, ref?_rename, hkid, Option.map_some]
    simp only [typeName?_renumber_tree hd hi hs, htype, List.map_cons]
    rw [ih (fun s hs => hkids s (List.mem_cons_of_mem _ hs)) haround]
  | case6 k kid rest around s hkid htype hlevel ih =>
    have hs : d.InTree s := hkids s (ref?_eq_some.1 hkid ▸ List.mem_cons_self)
    have houter : outer (rest.map (·.rename (renamed n d.objects)))
        (around.map (List.map (·.rename (renamed n d.objects)))) =
          (outer rest around).map (List.map (·.rename (renamed n d.objects))) := by
      cases rest <;> rfl
    rw [List.map_cons, pagesFrom, ref?_rename, hkid, Option.map_some]
    simp only [typeName?_renumber_tree hd hi hs, htype, List.length_map, hlevel, ↓reduceIte,
      kids_renumber hd hi hs, houter]
    exact ih (fun t ht => hs.kid (Or.inr htype) ht)
      (forall_mem_outer (fun t ht => hkids t (List.mem_cons_of_mem _ ht)) haround)
  | case7 k kid rest around s hkid htype hlevel ih =>
    have hs : d.InTree s := hkids s (ref?_eq_some.1 hkid ▸ List.mem_cons_self)
    rw [List.map_cons, pagesFrom, ref?_rename, hkid, Option.map_some]
    simp only [typeName?_renumber_tree hd hi hs, htype, List.length_map, hlevel, ↓reduceIte]
    exact ih (fun s hs => hkids s (List.mem_cons_of_mem _ hs)) haround
  | case8 k kid rest around s hkid hpage hpages ih =>
    have hs : d.InTree s := hkids s (ref?_eq_some.1 hkid ▸ List.mem_cons_self)
    rw [List.map_cons, pagesFrom, ref?_rename, hkid, Option.map_some]
    simp only [typeName?_renumber_tree hd hi hs]
    exact ih (fun s hs => hkids s (List.mem_cons_of_mem _ hs)) haround

/-- The pages keep their order. -/
theorem pages_renumber : (d.renumber n).pages = d.pages.map (renamed n d.objects) := by
  unfold pages
  rw [pagesRef?_renumber hd hi]
  cases hroot : d.pagesRef? with
  | none => rfl
  | some root =>
    have hr : d.InTree root := .root hroot
    have hwalk := pagesFrom_renumber (n := n) hd hi d.objects.length (d.kids root) []
      (fun s hs => hr.kid (Or.inl hroot) hs) (by simp)
    rw [length_renumber, Option.map_some]
    dsimp only
    rw [kids_renumber hd hi hr]
    exact hwalk

end

section
variable {d : Document} {r : Ref}

/-- A page is in the page tree, and its dictionary is that of a page. -/
theorem of_mem_pagesFrom (k : Nat) (kids : List Object) (around : List (List Object))
    (hkids : ∀ s, .ref s ∈ kids → d.InTree s)
    (haround : ∀ kids ∈ around, ∀ s, .ref s ∈ kids → d.InTree s)
    (h : r ∈ d.pagesFrom k kids around) :
    d.InTree r ∧ (d.dict? r).bind Dict.typeName? = some "Page" := by
  fun_induction d.pagesFrom k kids around with
  | case1 => cases h
  | case2 => cases h
  | case3 k kids around ih =>
    obtain ⟨hkids, haround⟩ := List.forall_mem_cons.1 haround
    exact ih hkids haround h
  | case4 k kid rest around hkid ih =>
    exact ih (fun s hs => hkids s (List.mem_cons_of_mem _ hs)) haround h
  | case5 k kid rest around s hkid htype ih =>
    rcases List.mem_cons.1 h with rfl | h
    · exact ⟨hkids r (ref?_eq_some.1 hkid ▸ List.mem_cons_self), htype⟩
    · exact ih (fun s hs => hkids s (List.mem_cons_of_mem _ hs)) haround h
  | case6 k kid rest around s hkid htype hlevel ih =>
    have hs : d.InTree s := hkids s (ref?_eq_some.1 hkid ▸ List.mem_cons_self)
    exact ih (fun t ht => hs.kid (Or.inr htype) ht)
      (forall_mem_outer (fun t ht => hkids t (List.mem_cons_of_mem _ ht)) haround) h
  | case7 k kid rest around s hkid htype hlevel ih =>
    exact ih (fun s hs => hkids s (List.mem_cons_of_mem _ hs)) haround h
  | case8 k kid rest around s hkid hpage hpages ih =>
    exact ih (fun s hs => hkids s (List.mem_cons_of_mem _ hs)) haround h

theorem of_mem_pages (h : r ∈ d.pages) :
    d.InTree r ∧ (d.dict? r).bind Dict.typeName? = some "Page" := by
  unfold pages at h
  cases hroot : d.pagesRef? with
  | none =>
    rw [hroot] at h
    cases h
  | some root =>
    rw [hroot] at h
    have hr : d.InTree root := .root hroot
    exact of_mem_pagesFrom _ _ _ (fun s hs => hr.kid (Or.inl hroot) hs) (by simp) h

theorem inTree_of_mem_pages (h : r ∈ d.pages) : d.InTree r :=
  (of_mem_pages h).1

theorem exists_dict_of_mem_pages (h : r ∈ d.pages) :
    ∃ e, d.dict? r = some e ∧ e.typeName? = some "Page" :=
  Option.bind_eq_some_iff.1 (of_mem_pages h).2

theorem exists_page_of_mem_pages (h : r ∈ d.pages) : ∃ page, d.page? r = some page := by
  obtain ⟨e, he, -⟩ := exists_dict_of_mem_pages h
  exact ⟨_, by rw [page?, he, Option.map_some]⟩

theorem isSome_of_mem_pages (h : r ∈ d.pages) : (d.find? r).isSome := by
  obtain ⟨e, he, -⟩ := exists_dict_of_mem_pages h
  exact isSome_of_dict? he

theorem led_of_mem_pages (h : r ∈ d.pages) : d.Led r :=
  (inTree_of_mem_pages h).led (isSome_of_mem_pages h)

end

/-! ## Attributes of a page -/

/-- The nodes above, at most so many, the nearest first. -/
def above (d : Document) : Nat → Option Ref → List Dict
  | 0, _ => []
  | _, none => []
  | k + 1, some r =>
    match d.dict? r with
    | none => []
    | some node => node :: above d k node.parent?

/-- An entry of a page: an attribute that may come from the nodes above is that of the page or, if
    it has none, of the nearest node that has one. -/
def attribute? (d : Document) (page : Dict) (name : String) : Option Object :=
  if name ∈ inheritable then (page :: d.above depthLimit page.parent?).findSome? (Dict.get? name)
  else page.get? name

theorem entry_inherit (node page : Dict) (name other : String) :
    (inherit node page name).get? other =
      if name = other then (page.get? other).or (node.get? other) else page.get? other := by
  unfold inherit Dict.has
  by_cases h : name = other
  · subst h
    cases hpage : page.get? name with
    | some v => simp [hpage]
    | none => cases node.get? name <;> simp [hpage, Dict.get?_set]
  · rw [if_neg h]
    split
    · rfl
    · cases node.get? name <;> simp [h, Dict.get?_set]

theorem entry_foldl_inherit (node page : Dict) (names : List String) (name : String) :
    (names.foldl (inherit node) page).get? name =
      if name ∈ names then (page.get? name).or (node.get? name) else page.get? name := by
  induction names generalizing page with
  | nil => simp
  | cons other names ih =>
    rw [List.foldl_cons, ih, entry_inherit]
    by_cases h : other = name
    · subst h
      cases page.get? other <;> simp
    · simp [h, Ne.symm h]

/-- A page takes nothing from a node that has nothing. -/
theorem foldl_inherit_of_none {node : Dict} {names : List String} (page : Dict)
    (h : ∀ name ∈ names, node.get? name = none) : names.foldl (inherit node) page = page := by
  induction names with
  | nil => rfl
  | cons name names ih =>
    obtain ⟨hname, hnames⟩ := List.forall_mem_cons.1 h
    rw [List.foldl_cons, inherit, hname]
    simpa using ih hnames

theorem entry_inherited (d : Document) (k : Nat) (node : Option Ref) (page : Dict)
    (name : String) : (d.inherited k node page).get? name = if name ∈ inheritable then
      (page :: d.above k node).findSome? (Dict.get? name) else page.get? name := by
  fun_induction d.inherited k node page with
  | case1 _ page => cases h : page.get? name <;> simp [above, h]
  | case2 k page => cases h : page.get? name <;> simp [above, h]
  | case3 k r page hnode => cases h : page.get? name <;> simp [above, hnode, h]
  | case4 k r page node hnode ih =>
    rw [ih, above, hnode]
    by_cases h : name ∈ inheritable
    · simp only [h, ↓reduceIte, List.findSome?_cons, entry_foldl_inherit]
      cases page.get? name <;> simp
    · simp only [h, ↓reduceIte, entry_foldl_inherit]

/-- **A page has its own attributes, and those of the nearest nodes above.** -/
theorem get?_page? {d : Document} {r : Ref} {page e : Dict} (hpage : d.dict? r = some page)
    (h : d.page? r = some e) (name : String) : e.get? name = d.attribute? page name := by
  rw [page?, hpage, Option.map_some, Option.some.injEq] at h
  subst h
  exact d.entry_inherited _ _ _ _

/-- An attribute that a page has it does not take from above. -/
theorem entry_inherited_of_own (d : Document) (k : Nat) (node : Option Ref) {page : Dict}
    {name : String} {v : Object} (h : page.get? name = some v) :
    (d.inherited k node page).get? name = some v := by
  rw [entry_inherited]
  simp [h]

theorem foldl_inherit_of_all (node : Dict) {names : List String} {page : Dict}
    (h : ∀ name ∈ names, page.has name) : names.foldl (inherit node) page = page := by
  induction names with
  | nil => rfl
  | cons name names ih =>
    obtain ⟨hname, hnames⟩ := List.forall_mem_cons.1 h
    rw [List.foldl_cons, inherit, if_pos hname, ih hnames]

/-- A page that has all attributes takes none from above. -/
theorem inherited_of_all (d : Document) (k : Nat) (node : Option Ref) {page : Dict}
    (h : ∀ name ∈ inheritable, page.has name) : d.inherited k node page = page := by
  induction k generalizing node with
  | zero => simp [inherited]
  | succ k ih =>
    cases node with
    | none => simp [inherited]
    | some r =>
      rw [inherited]
      cases d.dict? r with
      | none => rfl
      | some above =>
        dsimp only
        rw [foldl_inherit_of_all above h, ih]

/-! ## Attributes in the numbered document -/

/-- The references, from one on upwards, at which attributes of a page are looked for until it has
    them all. -/
def sought (d : Document) (names : List String) : Nat → Option Ref → Dict → List Ref
  | 0, _, _ => []
  | _, none, _ => []
  | k + 1, some r, page =>
    if ∀ name ∈ names, page.has name then []
    else
      match d.dict? r with
      | none => [r]
      | some node => r :: sought d names k node.parent? (inheritable.foldl (inherit node) page)

/-- No reference at which these attributes of a page are looked for is captured. -/
def Secure (d : Document) (n : Nat) (names : List String) (r : Ref) : Prop :=
  ∀ page, d.dict? r = some page → ∀ s ∈ d.sought names depthLimit page.parent? page,
    ¬d.Captured n s

section
variable {d : Document} {n : Nat} {r s : Ref}

theorem Closed.not_captured_of_mem_sought (h : d.Closed) {names : List String} {k : Nat}
    {node : Option Ref} {page : Dict} (hnode : ∀ s, node = some s → (d.find? s).isSome)
    (hs : s ∈ d.sought names k node page) : ¬d.Captured n s := by
  fun_induction d.sought names k node page with
  | case1 => cases hs
  | case2 => cases hs
  | case3 => cases hs
  | case4 k r page _ hnone =>
    rw [List.mem_singleton] at hs
    exact h.not_captured (hs ▸ hnode r rfl)
  | case5 k r page _ node hdict ih =>
    rcases List.mem_cons.1 hs with rfl | hs
    · exact h.not_captured (hnode _ rfl)
    · refine ih (fun t ht => ?_) hs
      exact h.isSome_of_mem_dict hdict (mem_refsOfEntries (parent?_eq_some ht) (mem_refs_ref _))

theorem Closed.secure (h : d.Closed) (n : Nat) (names : List String) (r : Ref) :
    d.Secure n names r := fun page hpage s hs => by
  refine h.not_captured_of_mem_sought (fun t ht => ?_) hs
  exact h.isSome_of_mem_dict hpage (mem_refsOfEntries (parent?_eq_some ht) (mem_refs_ref _))

/-- Where a page has its own, nothing is looked for. -/
theorem secure_of_own {page : Dict} {name : String} {v : Object} (hpage : d.dict? r = some page)
    (hv : page.get? name = some v) : d.Secure n [name] r := fun page' hpage' s hs => by
  obtain rfl := Option.some.inj (hpage.symm.trans hpage')
  unfold sought at hs
  split at hs
  · cases hs
  · cases hs
  · simp [Dict.has, hv] at hs

variable (hd : d.objects.Ascending)
include hd

/-- A page takes all attributes from the nodes above it as before. -/
theorem inherited_renumber (k : Nat) (above : Option Ref) (page : Dict)
    (habove : ∀ s, above = some s → (d.find? s).isSome → d.Led s)
    (hsecure : ∀ s ∈ d.sought inheritable k above page, ¬d.Captured n s) :
    (d.renumber n).inherited k (above.map (renamed n d.objects))
        (renameEntries (renamed n d.objects) page) =
      renameEntries (renamed n d.objects) (d.inherited k above page) := by
  fun_induction d.sought inheritable k above page with
  | case1 => simp [inherited]
  | case2 => simp [inherited]
  | case3 k s page hall =>
    rw [inherited_of_all d _ _ hall, inherited_of_all]
    simpa only [has_renameEntries] using hall
  | case4 k s page _ hnone =>
    rw [Option.map_some, inherited, inherited,
      dict?_renumber hd (habove s rfl) (hsecure s List.mem_cons_self), hnone]
    rfl
  | case5 k s page _ node hnode ih =>
    obtain ⟨hs, hsecure⟩ := List.forall_mem_cons.1 hsecure
    rw [Option.map_some, inherited, inherited, dict?_renumber hd (habove s rfl) hs, hnode,
      Option.map_some]
    dsimp only
    rw [foldl_inherit_renameEntries, parent?_renameEntries]
    exact ih (fun t => (habove s rfl (isSome_of_dict? hnode)).parent hnode) hsecure

/-- A page takes an attribute from the nodes above it as before. -/
theorem entry_inherited_renumber (k : Nat) (above : Option Ref) (page : Dict) {name : String}
    (habove : ∀ s, above = some s → (d.find? s).isSome → d.Led s)
    (hsecure : ∀ s ∈ d.sought [name] k above page, ¬d.Captured n s) :
    Dict.get? name ((d.renumber n).inherited k (above.map (renamed n d.objects))
        (renameEntries (renamed n d.objects) page)) =
      (Dict.get? name (d.inherited k above page)).map (·.rename (renamed n d.objects)) := by
  fun_induction d.sought [name] k above page with
  | case1 => simp [inherited, get?_renameEntries]
  | case2 => simp [inherited, get?_renameEntries]
  | case3 k s page hown =>
    obtain ⟨v, hv⟩ := Option.isSome_iff_exists.1 (hown name (by simp))
    rw [entry_inherited_of_own d _ _ hv, entry_inherited_of_own _ _ _
      (by rw [get?_renameEntries, hv, Option.map_some]), Option.map_some]
  | case4 k s page _ hnone =>
    rw [Option.map_some, inherited, inherited,
      dict?_renumber hd (habove s rfl) (hsecure s List.mem_cons_self), hnone]
    exact get?_renameEntries _ name page
  | case5 k s page _ node hnode ih =>
    obtain ⟨hs, hsecure⟩ := List.forall_mem_cons.1 hsecure
    rw [Option.map_some, inherited, inherited, dict?_renumber hd (habove s rfl) hs, hnode,
      Option.map_some]
    dsimp only
    rw [foldl_inherit_renameEntries, parent?_renameEntries]
    exact ih (fun t => (habove s rfl (isSome_of_dict? hnode)).parent hnode) hsecure

variable (hi : d.Intact n)
include hi

/-- A page is as before, with the attributes of the nodes above it. -/
theorem page?_renumber (h : d.InTree r) (hsecure : d.Secure n inheritable r) :
    (d.renumber n).page? (renamed n d.objects r) =
      (d.page? r).map (renameEntries (renamed n d.objects)) := by
  unfold page?
  rw [dict?_renumber_tree hd hi h]
  cases hpage : d.dict? r with
  | none => rfl
  | some page =>
    rw [Option.map_some, Option.map_some, Option.map_some, parent?_renameEntries]
    exact congrArg some (inherited_renumber hd _ _ _
      (fun s => (h.led (isSome_of_dict? hpage)).parent hpage) (hsecure page hpage))

/-- An entry of a page is as before, its own or one from the nodes above it. -/
theorem entry_page?_renumber (h : d.InTree r) {page e : Dict} (hpage : d.dict? r = some page)
    (he : (d.renumber n).page? (renamed n d.objects r) = some e) {name : String}
    (hsecure : name ∈ inheritable → d.Secure n [name] r) :
    e.get? name = (d.attribute? page name).map (·.rename (renamed n d.objects)) := by
  have hnew : (d.renumber n).dict? (renamed n d.objects r) =
      some (renameEntries (renamed n d.objects) page) := by
    rw [dict?_renumber_tree hd hi h, hpage, Option.map_some]
  by_cases hname : name ∈ inheritable
  · rw [page?, hnew, Option.map_some, Option.some.injEq, parent?_renameEntries] at he
    rw [← he, entry_inherited_renumber hd _ _ _
      (fun s => (h.led (isSome_of_dict? hpage)).parent hpage) (hsecure hname page hpage)]
    rw [entry_inherited, attribute?]
  · rw [get?_page? hnew he, attribute?, if_neg hname, attribute?, if_neg hname,
      get?_renameEntries]

end

/-! ## What a page refers to -/

section
variable {d : Document}

theorem led_of_mem_inherit {r : Ref} {node page : Dict} (hr : d.Led r)
    (hnode : d.dict? r = some node)
    (hpage : ∀ s ∈ refsOfEntries page, (d.find? s).isSome → d.Led s) (names : List String) :
    ∀ s ∈ refsOfEntries (names.foldl (inherit node) page), (d.find? s).isSome → d.Led s := by
  induction names generalizing page with
  | nil => exact hpage
  | cons name names ih =>
    refine ih fun s hs hs' => ?_
    unfold inherit at hs
    split at hs
    · exact hpage s hs hs'
    · split at hs
      · next v hv =>
        rcases mem_refsOfEntries_set hs with hs | hs
        · exact hr.of_mem_dict hnode (mem_refsOfEntries hv hs) hs'
        · exact hpage s hs hs'
      · exact hpage s hs hs'

theorem led_of_mem_inherited (k : Nat) (node : Option Ref) (page : Dict)
    (hnode : ∀ s, node = some s → (d.find? s).isSome → d.Led s)
    (hpage : ∀ s ∈ refsOfEntries page, (d.find? s).isSome → d.Led s) :
    ∀ s ∈ refsOfEntries (d.inherited k node page), (d.find? s).isSome → d.Led s := by
  fun_induction d.inherited k node page with
  | case1 => exact hpage
  | case2 => exact hpage
  | case3 => exact hpage
  | case4 k r page node hfound ih =>
    have hr : d.Led r := hnode r rfl (isSome_of_dict? hfound)
    exact ih (fun t => hr.parent hfound) (led_of_mem_inherit hr hfound hpage inheritable)

/-- The trailer leads to what a page refers to. -/
theorem led_of_mem_page? {r s : Ref} {e : Dict} (hr : d.Led r) (h : d.page? r = some e)
    (hs : s ∈ refsOfEntries e) (hs' : (d.find? s).isSome) : d.Led s := by
  obtain ⟨page, hpage, rfl⟩ := Option.map_eq_some_iff.1 h
  exact led_of_mem_inherited _ _ _ (fun t => hr.parent hpage)
    (fun t ht ht' => hr.of_mem_dict hpage ht ht') s hs hs'

end

end Document

end Waybill.Pdf
