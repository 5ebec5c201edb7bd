/-
  Documents gathered under one catalog and one node of the page tree.

  * `Gathering` are documents whose pool has a catalog and a node;
  * `Gathering.bound` is the document made of the pool, `Gathering.merged` the same with its objects
    numbered from one on and its streams compressed, `Gathering.number` their new references;
  * `Document.Holds`: a document that was written and read again has the objects that its trailer
    leads to;
  * `Gathering.Found`: the trailer of the merged document leads to an object.

  Statements: `merge_eq_ok` (what is merged is a gathering), `find?_leaf`, `find?_other` and
  `type_cases` (what stands in the document), `found_leaf` (the trailer leads to every page),
  `find?_merged` (what it leads to is found in the file).
-/
import Waybill.Proofs.Pdf.Compression
import Waybill.Proofs.Pdf.Pool

namespace Waybill.Pdf

/-! ## Several objects put in -/

namespace Objects

variable {α : Type} (key : α → Ref) (value : α → Object)

theorem Ascending.foldl_insert {objects : Objects} (h : objects.Ascending) (more : List α) :
    Ascending (more.foldl (fun objects a => objects.insert (key a) (value a)) objects) := by
  induction more generalizing objects with
  | nil => exact h
  | cons a more ih => exact ih (h.insert _ _)

theorem find?_foldl_insert_of_not_mem (objects : Objects) {more : List α} {r : Ref}
    (h : ∀ a ∈ more, key a ≠ r) :
    find? r (more.foldl (fun objects a => objects.insert (key a) (value a)) objects) =
      objects.find? r := by
  induction more generalizing objects with
  | nil => rfl
  | cons a more ih =>
    obtain ⟨ha, hmore⟩ := List.forall_mem_cons.1 h
    rw [List.foldl_cons, ih _ hmore, find?_insert, if_neg ha]

/-- What is put in is found, if nothing else is put in its place. -/
theorem find?_foldl_insert (objects : Objects) {more : List α} {a : α} (ha : a ∈ more)
    (hsame : ∀ b ∈ more, key b = key a → value b = value a) :
    find? (key a) (more.foldl (fun objects a => objects.insert (key a) (value a)) objects) =
      some (value a) := by
  induction more generalizing objects a with
  | nil => cases ha
  | cons b more ih =>
    obtain ⟨hb, hmore⟩ := List.forall_mem_cons.1 hsame
    rw [List.foldl_cons]
    by_cases hlater : ∃ c ∈ more, key c = key a
    · obtain ⟨c, hc, hkey⟩ := hlater
      have hvalue := hmore c hc hkey
      rw [← hkey, ← hvalue]
      refine ih _ hc fun e he hekey => ?_
      rw [hvalue, hmore e he (hekey.trans hkey)]
    · rw [find?_foldl_insert_of_not_mem key value _ fun c hc hkey => hlater ⟨c, hc, hkey⟩,
        find?_insert]
      have hab : a = b := (List.mem_cons.1 ha).resolve_right fun ha => hlater ⟨a, ha, rfl⟩
      rw [hab, if_pos rfl]

end Objects

/-! ## Gatherings -/

/-- Documents whose pool has a catalog and a node of the page tree. -/
structure Gathering where
  docs : List Document
  ordered : ∀ d ∈ docs, d.objects.Ascending
  catalog : Ref × Dict
  catalog_first : (pool docs).first? "Catalog" = some catalog
  root : Ref × Dict
  root_first : (pool docs).first? "Pages" = some root

namespace Gathering

variable (g : Gathering)

/-- The document made of the pool. -/
def bound : Document :=
  (pool g.docs).merged g.catalog g.root

/-- The new reference of an object. -/
def number (r : Ref) : Ref :=
  renamed 1 g.bound.objects r

/-- The documents in one. -/
def merged (zlib : Compressor) : Document :=
  (g.bound.renumber 1).compress zlib

/-- The pages of all documents, each with its attributes. -/
def leaves : List (Ref × Dict) :=
  (pool g.docs).pages

/-- The node of the page tree. -/
def node : Dict :=
  ((("Parent" :: inheritable).foldl (fun d name => Dict.erase name d) g.root.2).set "Count"
    (.int g.leaves.length)).set "Kids" (.array (g.leaves.map fun leaf => .ref leaf.1))

/-- The catalog. -/
def top : Dict :=
  (g.catalog.2.set "Pages" (.ref g.root.1)).erase "Outlines"

/-- A page with the node above it. -/
def page (leaf : Ref × Dict) : Dict :=
  leaf.2.set "Parent" (.ref g.root.1)

theorem objects_bound : g.bound.objects =
    ((g.leaves.foldl (fun objects leaf => objects.insert leaf.1 (.dict (g.page leaf)))
      (pool g.docs).others).insert g.root.1 (.dict g.node)).insert g.catalog.1 (.dict g.top) := rfl

theorem ascending_bound : g.bound.objects.Ascending := by
  have hothers : (pool g.docs).others.Ascending :=
    (ascending_pool g.docs).sublist List.filter_sublist
  rw [objects_bound]
  exact ((hothers.foldl_insert _ _ g.leaves).insert _ _).insert _ _

/-- Documents are merged when their pool has a catalog and a node of the page tree. -/
theorem merge_eq (zlib : Compressor) : merge zlib g.docs = .ok (g.merged zlib) := by
  have hcatalog := g.catalog_first
  have hroot := g.root_first
  rw [pool] at hcatalog hroot
  rw [merge]
  simp only [hcatalog, hroot]
  rfl

/-! ## Entries of the catalog, the node and the pages -/

theorem typeName?_top : g.top.typeName? = some "Catalog" := by
  rw [← (of_first? g.catalog_first).2]
  simp [top, Dict.typeName?, Dict.get?_erase, Dict.get?_set]

theorem pages_top : g.top.get? "Pages" = some (.ref g.root.1) := by
  simp [top, Dict.get?_erase, Dict.get?_set]

theorem typeName?_node : g.node.typeName? = some "Pages" := by
  rw [← (of_first? g.root_first).2]
  simp [node, inheritable, Dict.typeName?, Dict.get?_erase, Dict.get?_set]

theorem kids_node :
    g.node.get? "Kids" = some (.array (g.leaves.map fun leaf => .ref leaf.1)) := by
  simp [node, Dict.get?_set]

theorem count_node : g.node.get? "Count" = some (.int g.leaves.length) := by
  simp [node, Dict.get?_set]

theorem parent?_node : g.node.parent? = none := by
  simp [node, inheritable, Dict.parent?, Dict.get?_erase, Dict.get?_set]

/-- The node has nothing that a page could take over. -/
theorem inheritable_node {name : String} (h : name ∈ inheritable) : g.node.get? name = none := by
  simp only [inheritable, List.mem_cons, List.not_mem_nil, or_false] at h
  rcases h with rfl | rfl | rfl | rfl <;>
    simp [node, inheritable, Dict.get?_erase, Dict.get?_set]

/-! ## Where pages come from -/

theorem leaves_eq : g.leaves = (seats 1 g.docs).flatMap fun seat => seat.copy.leaves :=
  pages_pool g.docs

variable {g} {leaf : Ref × Dict} {r : Ref} {o : Object}

/-- A page is a page of one of the documents. -/
theorem mem_leaves : leaf ∈ g.leaves ↔
    ∃ seat ∈ seats 1 g.docs, leaf.1 ∈ seat.copy.pages ∧ seat.copy.page? leaf.1 = some leaf.2 := by
  rw [leaves_eq, List.mem_flatMap]
  exact exists_congr fun seat => and_congr_right fun _ => Document.mem_leaves

/-- The pool has an object where a page is, and that is no dictionary of another type. -/
theorem exists_of_mem_leaves (h : leaf ∈ g.leaves) :
    ∃ o, (pool g.docs).objects.find? leaf.1 = some o ∧ ∀ type ∈ o.typeName?, type = "Page" := by
  obtain ⟨seat, hseat, hpage, -⟩ := mem_leaves.1 h
  obtain ⟨o, ho⟩ := Option.isSome_iff_exists.1 (Document.isSome_of_mem_pages hpage)
  refine ⟨o, find?_pool.2 ⟨seat, hseat, ho⟩, fun type hother => ?_⟩
  obtain ⟨e, he, htype⟩ := Option.bind_eq_some_iff.1 hother
  rw [dict?_eq_some.1 he] at ho
  obtain ⟨e', he', htype'⟩ := Document.exists_dict_of_mem_pages hpage
  obtain rfl := Option.some.inj ((Document.dict?_of_find? ho).symm.trans he')
  exact Option.some.inj (htype.symm.trans htype')

theorem ne_catalog_of_mem_leaves (h : leaf ∈ g.leaves) : leaf.1 ≠ g.catalog.1 := by
  intro heq
  obtain ⟨o, ho, hpage⟩ := exists_of_mem_leaves h
  obtain ⟨hcatalog, htype⟩ := of_first? g.catalog_first
  rw [heq, hcatalog] at ho
  cases ho
  exact absurd (hpage _ htype) (by decide)

theorem ne_root_of_mem_leaves (h : leaf ∈ g.leaves) : leaf.1 ≠ g.root.1 := by
  intro heq
  obtain ⟨o, ho, hpage⟩ := exists_of_mem_leaves h
  obtain ⟨hroot, htype⟩ := of_first? g.root_first
  rw [heq, hroot] at ho
  cases ho
  exact absurd (hpage _ htype) (by decide)

theorem catalog_ne_root : g.catalog.1 ≠ g.root.1 := by
  intro heq
  obtain ⟨hcatalog, htype⟩ := of_first? g.catalog_first
  obtain ⟨hroot, htype'⟩ := of_first? g.root_first
  rw [heq, hroot, Option.some.injEq, Object.dict.injEq] at hcatalog
  rw [← hcatalog, htype'] at htype
  exact absurd htype (by decide)

/-- A page has one dictionary, however often it is among the kids. -/
theorem leaf_eq {other : Ref × Dict} (h : leaf ∈ g.leaves) (h' : other ∈ g.leaves)
    (heq : other.1 = leaf.1) : other = leaf := by
  obtain ⟨seat, hseat, hin, hpage⟩ := mem_leaves.1 h
  obtain ⟨seat', hseat', hin', hpage'⟩ := mem_leaves.1 h'
  rw [heq] at hin' hpage'
  obtain rfl := seats_eq hseat hseat' (Document.isSome_of_mem_pages hin)
    (Document.isSome_of_mem_pages hin')
  exact Prod.ext heq (Option.some.inj (hpage'.symm.trans hpage))

/-! ## What stands in the document -/

theorem find?_catalog : g.bound.find? g.catalog.1 = some (.dict g.top) := by
  rw [Document.find?, objects_bound, Objects.find?_insert, if_pos rfl]

theorem find?_root : g.bound.find? g.root.1 = some (.dict g.node) := by
  rw [Document.find?, objects_bound, Objects.find?_insert, if_neg catalog_ne_root,
    Objects.find?_insert, if_pos rfl]

theorem find?_leaf (h : leaf ∈ g.leaves) : g.bound.find? leaf.1 = some (.dict (g.page leaf)) := by
  rw [Document.find?, objects_bound, Objects.find?_insert,
    if_neg (ne_catalog_of_mem_leaves h).symm, Objects.find?_insert,
    if_neg (ne_root_of_mem_leaves h).symm]
  exact Objects.find?_foldl_insert Prod.fst (fun leaf => .dict (g.page leaf)) _ h
    fun other h' heq => by rw [leaf_eq h h' heq]

/-- What is neither the catalog nor the node nor a page stands there if it is of a type that is
    kept. -/
theorem find?_bound (hcatalog : r ≠ g.catalog.1) (hroot : r ≠ g.root.1)
    (hleaf : ∀ leaf ∈ g.leaves, leaf.1 ≠ r) :
    g.bound.find? r = some o ↔ (pool g.docs).objects.find? r = some o ∧
      ∀ type ∈ o.typeName?, type ∉ Pool.dropped := by
  rw [Document.find?, objects_bound, Objects.find?_insert, if_neg hcatalog.symm,
    Objects.find?_insert, if_neg hroot.symm,
    Objects.find?_foldl_insert_of_not_mem Prod.fst _ _ hleaf,
    Pool.find?_others (ascending_pool g.docs)]

/-- An object of a type that is kept stands there, unless a page is in its place. -/
theorem find?_other (ho : (pool g.docs).objects.find? r = some o)
    (htype : ∀ type ∈ o.typeName?, type ∉ Pool.dropped) (hleaf : ∀ leaf ∈ g.leaves, leaf.1 ≠ r) :
    g.bound.find? r = some o := by
  have hne : ∀ {type : String} {found : Ref × Dict}, (pool g.docs).first? type = some found →
      type ∈ Pool.dropped → r ≠ found.1 := fun hfirst hdropped heq => by
    obtain ⟨hfound, hfoundtype⟩ := of_first? hfirst
    rw [← heq, ho] at hfound
    cases hfound
    exact htype _ hfoundtype hdropped
  exact (find?_bound (hne g.catalog_first (by simp [Pool.dropped]))
    (hne g.root_first (by simp [Pool.dropped])) hleaf).2 ⟨ho, htype⟩

theorem typeName?_page (h : leaf ∈ g.leaves) : (g.page leaf).typeName? = some "Page" := by
  obtain ⟨seat, -, hin, hpage⟩ := mem_leaves.1 h
  obtain ⟨e, he, htype⟩ := Document.exists_dict_of_mem_pages hin
  obtain ⟨v, hv, hname⟩ := Option.bind_eq_some_iff.1 htype
  have hkept : leaf.2.get? "Type" = some v := by
    rw [Document.get?_page? he hpage, Document.attribute?, if_neg (by decide), hv]
  simp [page, Dict.typeName?, Dict.get?_set, hkept, hname]

/-- There is one catalog and one node; all else is a page, or of a type that is kept. -/
theorem type_cases (h : g.bound.find? r = some o) :
    r = g.catalog.1 ∨ r = g.root.1 ∨
      ∀ type ∈ o.typeName?, type = "Page" ∨ type ∉ Pool.dropped := by
  by_cases hcatalog : r = g.catalog.1
  · exact Or.inl hcatalog
  by_cases hroot : r = g.root.1
  · exact Or.inr (Or.inl hroot)
  refine Or.inr (Or.inr fun type htype => ?_)
  by_cases hleaf : ∀ leaf ∈ g.leaves, leaf.1 ≠ r
  · exact Or.inr (((find?_bound hcatalog hroot hleaf).1 h).2 type htype)
  · push Not at hleaf
    obtain ⟨leaf, hmem, rfl⟩ := hleaf
    rw [find?_leaf hmem] at h
    cases h
    exact Or.inl (Option.some.inj (htype.symm.trans (typeName?_page hmem)))

/-! ## What the trailer leads to -/

/-- An object that the trailer leads to has its references renamed, and its stream compressed. -/
theorem find?_number (zlib : Compressor) (h : g.bound.Led r) (ho : g.bound.find? r = some o) :
    (g.merged zlib).find? (g.number r) = some ((o.compressed zlib).rename g.number) := by
  rw [merged, find?_compress, number, Document.find?_renumber g.ascending_bound h, ho,
    rename_compressed]
  rfl

/-- The trailer leads to an object, and that of the merged document to it under its new number. -/
structure Found (g : Gathering) (zlib : Compressor) (r : Ref) : Prop where
  led : g.bound.Led r
  led_number : (g.merged zlib).Led (g.number r)

/-- So it is with what stands in such an object, its stream compressed. -/
theorem Found.next {zlib : Compressor} {s : Ref} (h : g.Found zlib r)
    (ho : g.bound.find? r = some o) (hs : s ∈ (o.compressed zlib).refs)
    (hs' : (g.bound.find? s).isSome) : g.Found zlib s := by
  have hled : g.bound.Led s := h.led.next ho (mem_refs_of_compressed hs) hs'
  obtain ⟨p, hp⟩ := Option.isSome_iff_exists.1 hs'
  refine ⟨hled, h.led_number.next (find?_number zlib h.led ho) ?_ ?_⟩
  · rw [refs_rename]
    exact List.mem_map_of_mem hs
  · simp [find?_number zlib hled hp]

theorem found_catalog (zlib : Compressor) : g.Found zlib g.catalog.1 := by
  have htrailer : refsOfEntries g.bound.trailer = [g.catalog.1] := by
    simp [bound, Pool.merged, refsOfEntries, Object.refs]
  have hled : g.bound.Led g.catalog.1 := .trailer (by simp [htrailer]) (by simp [find?_catalog])
  refine ⟨hled, .trailer ?_ (by simp [find?_number zlib hled find?_catalog])⟩
  rw [show (g.merged zlib).trailer = renameEntries g.number g.bound.trailer from rfl,
    refsOfEntries_rename, htrailer]
  exact List.mem_singleton_self _

theorem found_root (zlib : Compressor) : g.Found zlib g.root.1 :=
  (found_catalog zlib).next find?_catalog (mem_refsOfEntries g.pages_top (mem_refs_ref _))
    (by simp [find?_root])

/-- The trailer leads to every page. -/
theorem found_leaf (zlib : Compressor) (h : leaf ∈ g.leaves) : g.Found zlib leaf.1 := by
  refine (found_root zlib).next find?_root (mem_refsOfEntries g.kids_node ?_)
    (by simp [find?_leaf h])
  exact mem_refsOfItems (o := .ref leaf.1) (List.mem_map.2 ⟨leaf, h, rfl⟩) (mem_refs_ref _)

/-- No two objects get one number. -/
theorem number_injective {s : Ref} (hr : (g.bound.find? r).isSome) (hs : (g.bound.find? s).isSome)
    (h : g.number r = g.number s) : r = s := by
  obtain ⟨o, ho⟩ := Option.isSome_iff_exists.1 hr
  obtain ⟨p, hp⟩ := Option.isSome_iff_exists.1 hs
  exact renamed_injective g.ascending_bound (Objects.mem_of_find? ho) (Objects.mem_of_find? hp) h

end Gathering

/-! ## What stands in the file -/

/-- A document has the objects that the trailer of another leads to, as one that was written and is
    read has them.  It may have more that are no dictionaries, such as the stream that tells where
    they stand in the file. -/
structure Document.Holds (m d : Document) : Prop where
  root : m.trailer.get? "Root" = d.trailer.get? "Root"
  objects : ∀ r o, d.Led r → d.find? r = some o → m.find? r = some o
  others : ∀ r o, m.find? r = some o → d.find? r = some o ∨ o.dict? = none

theorem Document.Holds.refl (d : Document) : d.Holds d :=
  ⟨rfl, fun _ _ _ => id, fun _ _ => Or.inl⟩

namespace Gathering

variable {g : Gathering} {zlib : Compressor} {m : Document} (hm : m.Holds (g.merged zlib))
include hm

/-- What the trailer leads to is found under its new number. -/
theorem find?_merged {r : Ref} {o : Object} (h : g.Found zlib r)
    (ho : g.bound.find? r = some o) :
    m.find? (g.number r) = some ((o.compressed zlib).rename g.number) :=
  hm.objects _ _ h.led_number (find?_number zlib h.led ho)

theorem find?_merged_dict {r : Ref} {e : Dict} (h : g.Found zlib r)
    (he : g.bound.find? r = some (.dict e)) :
    m.find? (g.number r) = some (.dict (renameEntries g.number e)) :=
  find?_merged hm h he

theorem find?_merged_catalog :
    m.find? (g.number g.catalog.1) = some (.dict (renameEntries g.number g.top)) :=
  find?_merged_dict hm (found_catalog zlib) find?_catalog

theorem find?_merged_root :
    m.find? (g.number g.root.1) = some (.dict (renameEntries g.number g.node)) :=
  find?_merged_dict hm (found_root zlib) find?_root

/-- A dictionary that is found was there before. -/
theorem exists_of_find?_merged {r : Ref} {o : Object} {type : String} (h : m.find? r = some o)
    (htype : o.typeName? = some type) : ∃ s p, g.bound.find? s = some p ∧ r = g.number s ∧
      p.typeName? = some type := by
  rcases hm.others r o h with h | hnone
  · rw [merged, find?_compress, Option.map_eq_some_iff] at h
    obtain ⟨q, hq, rfl⟩ := h
    obtain ⟨s, p, hp, rfl, hsame⟩ := Document.exists_of_find?_renumber g.ascending_bound hq
    rw [typeName?_compressed, hsame] at htype
    exact ⟨s, p, hp, rfl, htype⟩
  · rw [Object.typeName?, hnone] at htype
    cases htype

theorem pagesRef?_merged : m.pagesRef? = some (g.number g.root.1) := by
  have htrailer : m.trailer.get? "Root" = some (.ref (g.number g.catalog.1)) := hm.root
  rw [Document.pagesRef?, Document.catalog?, htrailer, Option.bind_some, Object.ref?,
    Option.bind_some, Document.dict?_of_find? (find?_merged_catalog hm), Option.bind_some,
    get?_renameEntries, g.pages_top]
  rfl

end Gathering

/-! ## Merging -/

/-- Documents with a catalog and a node of the page tree can be gathered. -/
theorem exists_gathering {docs : List Document} (hd : ∀ d ∈ docs, d.objects.Ascending)
    (hcatalog : ∃ d ∈ docs, ∃ r o, d.find? r = some o ∧ o.typeName? = some "Catalog")
    (hnode : ∃ d ∈ docs, ∃ r o, d.find? r = some o ∧ o.typeName? = some "Pages") :
    ∃ g : Gathering, g.docs = docs := by
  obtain ⟨catalog, hcatalog⟩ := Option.isSome_iff_exists.1 (first?_isSome hd hcatalog)
  obtain ⟨root, hroot⟩ := Option.isSome_iff_exists.1 (first?_isSome hd hnode)
  exact ⟨⟨docs, hd, catalog, hcatalog, root, hroot⟩, rfl⟩

/-- Documents that are merged are gathered. -/
theorem merge_eq_ok {zlib : Compressor} {docs : List Document}
    (hd : ∀ d ∈ docs, d.objects.Ascending) {m : Document} (h : merge zlib docs = .ok m) :
    ∃ g : Gathering, g.docs = docs ∧ m = g.merged zlib := by
  unfold merge at h
  dsimp only at h
  split at h
  · next catalog hcatalog =>
    split at h
    · next root hroot =>
      exact ⟨⟨docs, hd, catalog, hcatalog, root, hroot⟩, rfl, (Except.ok.inj h).symm⟩
    · cases h
  · cases h

end Waybill.Pdf
