/-
  Objects of one document in the document that several are gathered in.

  * `Gathering.kids` are the pages of the merged document;
  * `Gathering.relocated` is the reference that an object of one document has there.

  Statements: `pages_copy` (the pages keep their order), `page?_merged` (a page keeps its
  attributes), `entry_of_leaf` (they are those it had), `copied` (whatever a page leads to is there)
  and `copied_meaning` (and means what it meant), `pairwise_relocated` (no objects of two documents
  come to stand in one place).
-/
import Waybill.Proofs.Pdf.Gathering
import Waybill.Proofs.Pdf.Shown

namespace Waybill.Pdf

namespace Gathering

variable {g : Gathering}

/-- The pages of the merged document. -/
def kids (g : Gathering) : List Ref :=
  g.leaves.map fun leaf => g.number leaf.1

theorem kids_eq_flatMap (g : Gathering) : g.kids =
    (seats 1 g.docs).flatMap fun seat => seat.copy.pages.map g.number := by
  rw [kids, leaves_eq, List.map_flatMap]
  refine congrArg (List.flatMap · (seats 1 g.docs)) (funext fun seat => ?_)
  rw [← seat.copy.map_fst_leaves, List.map_map]
  rfl

/-- A page keeps its attributes: there are none above it. -/
theorem page?_merged {zlib : Compressor} {m : Document} (hm : m.Holds (g.merged zlib))
    {leaf : Ref × Dict} (h : leaf ∈ g.leaves) :
    m.page? (g.number leaf.1) = some (renameEntries g.number (g.page leaf)) := by
  have hpage : m.dict? (g.number leaf.1) = some (renameEntries g.number (g.page leaf)) :=
    Document.dict?_of_find? (find?_merged_dict hm (found_leaf zlib h) (find?_leaf h))
  have hnode : m.dict? (g.number g.root.1) = some (renameEntries g.number g.node) :=
    Document.dict?_of_find? (find?_merged_root hm)
  have hparent : (g.page leaf).parent? = some g.root.1 := by
    simp [page, Dict.parent?, Dict.get?_set, Object.ref?]
  rw [Document.page?, hpage, Option.map_some, parent?_renameEntries, hparent, Option.map_some,
    depthLimit, Document.inherited, hnode]
  dsimp only
  rw [foldl_inherit_renameEntries, Document.foldl_inherit_of_none _ fun _ => g.inheritable_node,
    parent?_renameEntries, parent?_node, Option.map_none, Document.inherited]
  exact fun h => by cases h

/-! ## Places -/

/-- The reference that an object of one document has in the merged document. -/
def relocated (g : Gathering) (seat : Seat) (r : Ref) : Ref :=
  g.number (seat.place r)

section
variable {seat : Seat} (hseat : seat ∈ seats 1 g.docs)
include hseat

theorem ascending_source : seat.source.objects.Ascending :=
  g.ordered _ (source_mem hseat)

theorem isSome_copy {r : Ref} (h : (seat.source.find? r).isSome) :
    (seat.copy.find? (seat.place r)).isSome := by
  obtain ⟨o, ho⟩ := Option.isSome_iff_exists.1 h
  obtain ⟨p, hp, -⟩ :=
    Document.exists_find?_renumber (n := seat.first) (ascending_source hseat) ho
  exact Option.isSome_iff_exists.2 ⟨p, hp⟩

/-- No two objects get one place in the pool. -/
theorem place_injective {r s : Ref} (hr : (seat.source.find? r).isSome)
    (hs : (seat.source.find? s).isSome) (h : seat.place r = seat.place s) : r = s := by
  obtain ⟨o, ho⟩ := Option.isSome_iff_exists.1 hr
  obtain ⟨p, hp⟩ := Option.isSome_iff_exists.1 hs
  exact renamed_injective (ascending_source hseat) (Objects.mem_of_find? ho)
    (Objects.mem_of_find? hp) h

variable (hi : seat.source.Intact seat.first)
include hi

/-- The pages keep their order. -/
theorem pages_copy : seat.copy.pages = seat.source.pages.map seat.place :=
  Document.pages_renumber (ascending_source hseat) hi

theorem mem_pages_copy {r : Ref} (hr : r ∈ seat.source.pages) : seat.place r ∈ seat.copy.pages := by
  rw [pages_copy hseat hi]
  exact List.mem_map_of_mem hr

/-- A page of a document is gathered. -/
theorem exists_leaf {r : Ref} (hr : r ∈ seat.source.pages) :
    ∃ full, (seat.place r, full) ∈ g.leaves ∧ seat.copy.page? (seat.place r) = some full := by
  obtain ⟨full, hfull⟩ := Document.exists_page_of_mem_pages (mem_pages_copy hseat hi hr)
  exact ⟨full, mem_leaves.2 ⟨seat, hseat, mem_pages_copy hseat hi hr, hfull⟩, hfull⟩

/-- A page has the entries that it had, and the attributes from the nodes above it where no
    reference to these is captured. -/
theorem entry_of_leaf {r : Ref} (hr : r ∈ seat.source.pages) {page full : Dict}
    (hpage : seat.source.dict? r = some page) (hfull : seat.copy.page? (seat.place r) = some full)
    {name : String} (hsecure : name ∈ inheritable → seat.source.Secure seat.first [name] r) :
    full.get? name = (seat.source.attribute? page name).map (·.rename seat.place) :=
  Document.entry_page?_renumber (ascending_source hseat) hi (Document.inTree_of_mem_pages hr) hpage
    hfull hsecure

/-- A page is gathered with all its attributes. -/
theorem leaf_mem {r : Ref} {page : Dict} (hr : r ∈ seat.source.pages)
    (hsecure : seat.source.Secure seat.first inheritable r)
    (hpage : seat.source.page? r = some page) :
    (seat.place r, renameEntries seat.place page) ∈ g.leaves := by
  refine mem_leaves.2 ⟨seat, hseat, mem_pages_copy hseat hi hr, ?_⟩
  rw [Seat.copy, Seat.place, Document.page?_renumber (ascending_source hseat) hi
    (Document.inTree_of_mem_pages hr) hsecure, hpage]
  rfl

/-- Only pages are gathered as pages. -/
theorem mem_pages_of_leaf {leaf : Ref × Dict} (h : leaf ∈ g.leaves) {r : Ref}
    (hr : (seat.source.find? r).isSome) (heq : leaf.1 = seat.place r) : r ∈ seat.source.pages := by
  obtain ⟨other, hother, hin, -⟩ := mem_leaves.1 h
  rw [heq] at hin
  obtain rfl := seats_eq hseat hother (isSome_copy hseat hr) (Document.isSome_of_mem_pages hin)
  rw [pages_copy hseat hi, List.mem_map] at hin
  obtain ⟨s, hs, hplace⟩ := hin
  obtain rfl := place_injective hseat (Document.isSome_of_mem_pages hs) hr hplace
  exact hs

theorem find?_place {r : Ref} {o : Object} (hled : seat.source.Led r)
    (ho : seat.source.find? r = some o) (htype : ∀ type ∈ o.typeName?, type ∉ Pool.dropped)
    (hr : r ∉ seat.source.pages) : g.bound.find? (seat.place r) = some (o.rename seat.place) := by
  have hcopy : seat.copy.find? (seat.place r) = some (o.rename seat.place) := by
    rw [Seat.copy, Seat.place, Document.find?_renumber (ascending_source hseat) hled, ho]
    rfl
  refine find?_other (find?_pool.2 ⟨seat, hseat, hcopy⟩) ?_ fun leaf hleaf heq => ?_
  · rwa [typeName?_rename]
  · exact hr (mem_pages_of_leaf hseat hi hleaf hled.isSome heq)

/-- A page, or an object of a type that is kept, is there. -/
theorem isSome_place {r : Ref} (hled : seat.source.Led r) (hkeeps : seat.source.Keeps r) :
    (g.bound.find? (seat.place r)).isSome := by
  by_cases hr : r ∈ seat.source.pages
  · obtain ⟨full, hleaf, -⟩ := exists_leaf hseat hi hr
    simp [find?_leaf hleaf]
  · obtain ⟨o, ho, htype⟩ := hkeeps.resolve_left hr
    simp [find?_place hseat hi hled ho htype hr]

/-! ## What a page leads to -/

/-- What stands at a reference is there, with all its references. -/
theorem exists_place {zlib : Compressor} {r : Ref} {o : Object} (hled : seat.source.Led r)
    (hstays : seat.source.Stays seat.first r) (ho : seat.source.packed zlib r = some o) :
    ∃ p, g.bound.find? (seat.place r) = some p ∧
      ∀ s ∈ o.refs, seat.place s ∈ (p.compressed zlib).refs := by
  obtain ⟨q, hq, rfl⟩ := Option.map_eq_some_iff.1 ho
  unfold Document.shown at hq
  split at hq
  · next hr =>
    obtain ⟨page, hpage⟩ := Document.exists_page_of_mem_pages hr
    rw [hpage] at hq
    cases hq
    refine ⟨_, find?_leaf (leaf_mem hseat hi hr (hstays.secure hr) hpage), fun s hs => ?_⟩
    -- the node above is the only entry that the page has anew
    refine mem_refsOfEntries_of_erase "Parent" ?_
    rw [Gathering.page, erase_set, erase_renameEntries, refsOfEntries_rename]
    exact List.mem_map_of_mem hs
  · next hr =>
    obtain ⟨p, hp, htype⟩ := hstays.keeps.resolve_left hr
    obtain rfl : p = q := Option.some.inj (hp.symm.trans hq)
    refine ⟨_, find?_place hseat hi hled hp htype hr, fun s hs => ?_⟩
    rw [← rename_compressed, refs_rename]
    exact List.mem_map_of_mem hs

variable {zlib : Compressor}

/-- What is kept and stands in something that the trailers lead to, they lead to as well, that of
    its document and the new one. -/
theorem found_step {s t : Ref} {o : Object} (hled : seat.source.Led s)
    (hfound : g.Found zlib (seat.place s)) (hstays : seat.source.Stays seat.first s)
    (ho : seat.source.packed zlib s = some o) (ht : t ∈ o.refs)
    (hkeeps : seat.source.Keeps t) : seat.source.Led t ∧ g.Found zlib (seat.place t) := by
  have htled := Document.led_of_packed hled ho ht hkeeps.isSome
  obtain ⟨p, hp, hrefs⟩ := exists_place hseat hi hled hstays ho
  exact ⟨htled, hfound.next hp (hrefs t ht) (isSome_place hseat hi htled hkeeps)⟩

/-- Whatever a page leads to, the trailers lead to. -/
theorem found_of_leads {r s : Ref} (hr : r ∈ seat.source.pages)
    (hclean : seat.source.Clean seat.first r) (h : Leads (seat.source.packed zlib) r s) :
    seat.source.Led s ∧ g.Found zlib (seat.place s) := by
  induction h with
  | refl =>
    obtain ⟨full, hleaf, -⟩ := exists_leaf hseat hi hr
    exact ⟨Document.led_of_mem_pages hr, found_leaf zlib hleaf⟩
  | @step s t o h ho ht ih =>
    have hs := Document.leads_of_packed h
    have ht' := Document.leads_of_packed (h.step ho ht)
    exact found_step hseat hi ih.1 ih.2 (hclean s hs) ho ht (hclean t ht').keeps

variable {m : Document} (hm : m.Holds (g.merged zlib))
include hm

theorem shown_relocated {r : Ref} (hled : seat.source.Led r)
    (hfound : g.Found zlib (seat.place r)) (hstays : seat.source.Stays seat.first r) :
    m.shown g.kids (g.relocated seat r) =
      (seat.source.packed zlib r).map (·.rename (g.relocated seat)) := by
  have hcomp : g.relocated seat = g.number ∘ seat.place := rfl
  unfold Document.packed Document.shown
  by_cases hr : r ∈ seat.source.pages
  · obtain ⟨page, hpage⟩ := Document.exists_page_of_mem_pages hr
    have hleaf := leaf_mem hseat hi hr (hstays.secure hr) hpage
    have hkid : g.relocated seat r ∈ g.kids := List.mem_map.2 ⟨_, hleaf, rfl⟩
    have hmerged : m.page? (g.relocated seat r) = _ := page?_merged hm hleaf
    rw [if_pos hkid, if_pos hr, hmerged, hpage]
    simp only [Option.map_some, Object.compressed]
    rw [Gathering.page, erase_renameEntries, erase_set, erase_renameEntries,
      renameEntries_renameEntries, Object.rename, hcomp]
  · obtain ⟨o, ho, htype⟩ := hstays.keeps.resolve_left hr
    have hbound := find?_place hseat hi hled ho htype hr
    have hkid : g.relocated seat r ∉ g.kids := by
      intro hkid
      obtain ⟨leaf, hleaf, hnumber⟩ := List.mem_map.1 hkid
      refine hr (mem_pages_of_leaf hseat hi hleaf hled.isSome ?_)
      exact number_injective (by simp [find?_leaf hleaf]) (by simp [hbound]) hnumber
    rw [if_neg hkid, if_neg hr, relocated, find?_merged hm hfound hbound, ho, Option.map_some,
      Option.map_some, ← rename_compressed, rename_rename, hcomp]

/-- **Whatever a page leads to is there, and nothing else is led to.** -/
theorem copied {r : Ref} (hr : r ∈ seat.source.pages)
    (hclean : seat.source.Clean seat.first r) :
    Copied (seat.source.packed zlib) (m.shown g.kids) (g.relocated seat) r := by
  intro s hs
  obtain ⟨hled, hfound⟩ := found_of_leads hseat hi hr hclean hs
  exact shown_relocated hseat hi hm hled hfound (hclean s (Document.leads_of_packed hs))

/-- What a page leads to means what it meant. -/
theorem copied_meaning {r : Ref} (hr : r ∈ seat.source.pages)
    (hclean : seat.source.Clean seat.first r) (hz : Lossless zlib)
    (hpackable : seat.source.Packable r) :
    Copied (meaning (seat.source.shown seat.source.pages)) (meaning (m.shown g.kids))
      (g.relocated seat) r := by
  intro s hs
  have hs := Document.leads_packed_of_meaning hz hpackable hs
  have hs' := Document.leads_of_packed hs
  obtain ⟨hled, hfound⟩ := found_of_leads hseat hi hr hclean hs
  exact Document.meaning_packed hz hpackable hs'
    (shown_relocated hseat hi hm hled hfound (hclean s hs'))

end

/-- No objects of two documents come to stand in one place. -/
theorem pairwise_relocated (g : Gathering) : (seats 1 g.docs).Pairwise fun a b => ∀ r s,
    (a.source.find? r).isSome → (b.source.find? s).isSome → (g.bound.find? (a.place r)).isSome →
      (g.bound.find? (b.place s)).isSome → g.relocated a r ≠ g.relocated b s := by
  refine (pairwise_copies 1 g.docs).imp_of_mem fun {a b} ha hb hab r s hr hs hr' hs' heq => ?_
  have hplace : a.place r = b.place s := number_injective hr' hs' heq
  rcases hab (a.place r) with h | h
  · simpa [h] using isSome_copy ha hr
  · rw [hplace] at h
    simpa [h] using isSome_copy hb hs

/-- No pages of two documents come to stand in one place. -/
theorem pairwise_pages (g : Gathering) : (seats 1 g.docs).Pairwise fun a b =>
    (a.copy.pages.map g.number).Disjoint (b.copy.pages.map g.number) := by
  have hleaf : ∀ {seat r}, seat ∈ seats 1 g.docs → r ∈ seat.copy.pages →
      (g.bound.find? r).isSome := fun hseat hr => by
    obtain ⟨page, hpage⟩ := Document.exists_page_of_mem_pages hr
    have hleaf : (_, page) ∈ g.leaves := mem_leaves.2 ⟨_, hseat, hr, hpage⟩
    simp [find?_leaf hleaf]
  refine (pairwise_copies 1 g.docs).imp_of_mem fun {a b} ha hb hab t hta htb => ?_
  obtain ⟨r, hr, rfl⟩ := List.mem_map.1 hta
  obtain ⟨s, hs, heq⟩ := List.mem_map.1 htb
  obtain rfl := number_injective (hleaf hb hs) (hleaf ha hr) heq
  rcases hab s with h | h
  · simpa [h] using Document.isSome_of_mem_pages hr
  · simpa [h] using Document.isSome_of_mem_pages hs

end Gathering

end Waybill.Pdf
