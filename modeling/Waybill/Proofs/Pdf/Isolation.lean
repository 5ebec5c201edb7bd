/-
  Documents that are merged stay apart.

  * `Input.Owns`: in the merged document a page leads to nothing but what it leads to in its own
    document, and shows the same.

  Statements: `Gathering.exists_of_leads` (all that a page leads to is its own), `Gathering.owns`,
  `Gathering.pairwise_apart` (no object is led to from pages of two documents),
  `merged_inputs_stay_apart`; `find?_pool_of_missing` (a reference to no object may come to be one
  to an object of another document), `missing_object_shows_another_document`.
-/
import Waybill.Proofs.Pdf.Binding

namespace Waybill.Pdf

/-- A page leads to objects of its own document only, those that it leads to there, and shows what
    it shows there, with streams in fewer bytes that mean what they meant. -/
structure Input.Owns (input : Input) (zlib : Compressor) (m : Document) (kids : List Ref) (r : Ref) :
    Prop where
  leads : ∀ t, Leads (m.shown kids) (input.place r) t →
    ∃ s, Leads (input.source.packed zlib) r s ∧ t = input.place s ∧
      m.shown kids t = (input.source.packed zlib s).map (·.rename input.place)
  shows : ∀ n, unfolded (m.shown kids) n (input.place r) = unfolded (input.source.packed zlib) n r
  means : Lossless zlib → input.source.Packable r → ∀ n,
    unfolded (meaning (m.shown kids)) n (input.place r) =
      unfolded (meaning (input.source.shown input.source.pages)) n r

namespace Gathering

variable {g : Gathering} {zlib : Compressor} {m : Document} (hm : m.Holds (g.merged zlib))
include hm

theorem exists_of_leads {seat : Seat} (hseat : seat ∈ seats 1 g.docs)
    (hi : seat.source.Intact seat.first) {r : Ref} (hr : r ∈ seat.source.pages)
    (hclean : seat.source.Clean seat.first r) {t : Ref}
    (ht : Leads (m.shown g.kids) (g.relocated seat r) t) :
    ∃ s, Leads (seat.source.packed zlib) r s ∧ t = g.relocated seat s ∧
      m.shown g.kids t = (seat.source.packed zlib s).map (·.rename (g.relocated seat)) := by
  have hcopied := copied hseat hi hm hr hclean
  obtain ⟨s, hs, rfl⟩ := hcopied.leads ht
  exact ⟨s, hs, rfl, hcopied s hs⟩

theorem owns {seat : Seat} (hseat : seat ∈ seats 1 g.docs)
    (hi : seat.source.Intact seat.first) {r : Ref} (hr : r ∈ seat.source.pages)
    (hclean : seat.source.Clean seat.first r) : (g.input seat).Owns zlib m g.kids r where
  leads _ ht := exists_of_leads hm hseat hi hr hclean ht
  shows n := (copied hseat hi hm hr hclean).unfolded n
  means hz hpackable n := (copied_meaning hseat hi hm hr hclean hz hpackable).unfolded n

/-- No object is led to from pages of two documents. -/
theorem pairwise_apart : g.inputs.Pairwise fun a b =>
    a.source.Intact a.first → b.source.Intact b.first →
      ∀ r ∈ a.source.pages, ∀ s ∈ b.source.pages,
        a.source.Clean a.first r → b.source.Clean b.first s →
          ∀ t, Leads (m.shown g.kids) (a.place r) t → ¬Leads (m.shown g.kids) (b.place s) t := by
  refine List.pairwise_map.2 ((pairwise_relocated g).imp_of_mem fun {a b} ha hb hapart => ?_)
  intro hia hib r hr s hs hclean hclean' t ht ht'
  obtain ⟨u, hu, rfl, -⟩ := exists_of_leads hm ha hia hr hclean ht
  obtain ⟨v, hv, heq, -⟩ := exists_of_leads hm hb hib hs hclean' ht'
  have hkeeps := (hclean u (Document.leads_of_packed hu)).keeps
  have hkeeps' := (hclean' v (Document.leads_of_packed hv)).keeps
  refine hapart u v hkeeps.isSome hkeeps'.isSome ?_ ?_ heq
  · exact isSome_place ha hia (found_of_leads ha hia hr hclean hu).1 hkeeps
  · exact isSome_place hb hib (found_of_leads hb hib hs hclean' hv).1 hkeeps'

end Gathering

/-- **Documents that are merged stay apart.**  Whatever the other documents are, a page leads to
    objects of its own only and shows what it showed, if no reference of the page tree of its
    document is captured, and the page leads to nothing that is not there or is dropped.  A single
    file stays as it is. -/
theorem merged_inputs_stay_apart (w : Writing) {files : List ByteArray} {docs : List Document}
    (hread : files.mapM Document.ofBytes? = .ok docs) :
    (∀ file, files = [file] → mergeFiles w files = .ok file) ∧
    ∀ d, 2 ≤ files.length → merge w.zlib docs = .ok d → w.Preserves d →
      ∃ (bytes : ByteArray) (m : Document) (root : Ref) (node : Dict) (inputs : List Input),
      mergeFiles w files = .ok bytes ∧ Document.ofBytes? bytes = .ok m ∧
      inputs.map Input.toSeat = seats 1 docs ∧
      m.pagesRef? = some root ∧ m.find? root = some (.dict node) ∧
      node.get? "Kids" = some (.array ((inputs.flatMap Input.pages).map .ref)) ∧
      (∀ input ∈ inputs, input.source.Intact input.first →
        input.pages = input.source.pages.map input.place ∧
        ∀ r ∈ input.source.pages, input.source.Clean input.first r →
          input.Owns w.zlib m (inputs.flatMap Input.pages) r) ∧
      inputs.Pairwise fun a b => a.source.Intact a.first → b.source.Intact b.first →
        ∀ r ∈ a.source.pages, ∀ s ∈ b.source.pages,
          a.source.Clean a.first r → b.source.Clean b.first s →
            ∀ t, Leads (m.shown (inputs.flatMap Input.pages)) (a.place r) t →
              ¬Leads (m.shown (inputs.flatMap Input.pages)) (b.place s) t := by
  refine ⟨?_, fun d htwo hd hp => ?_⟩
  · rintro file rfl
    have hfile : readFiles 0 [file] = .ok docs := readFiles_eq_ok hread
    simp only [mergeFiles, List.isEmpty_cons, hfile]
    rfl
  · obtain ⟨bytes, m, hfile, hm, hholds⟩ := hp.exists_file htwo hread hd
    obtain ⟨g, rfl, rfl⟩ := merge_eq_ok (ordered_of_read hread) hd
    refine ⟨bytes, m, _, _, g.inputs, hfile, hm, g.map_toSeat_inputs,
      Gathering.pagesRef?_merged hholds, Gathering.find?_merged_root hholds, ?_, ?_, ?_⟩
    · rw [g.flatMap_pages_inputs, g.kids_merged]
    · intro input hinput hi
      obtain ⟨seat, hseat, rfl⟩ := List.mem_map.1 hinput
      rw [g.flatMap_pages_inputs]
      exact ⟨Gathering.pages_input hseat hi,
        fun r hr hclean => Gathering.owns hholds hseat hi hr hclean⟩
    · rw [g.flatMap_pages_inputs]
      exact Gathering.pairwise_apart hholds

theorem short_files_stay_apart :
    mergeFiles .plain [shortFile] = .ok shortFile ∧
    ∃ (bytes : ByteArray) (m : Document) (inputs : List Input),
      mergeFiles .plain [shortFile, shortFile] = .ok bytes ∧ Document.ofBytes? bytes = .ok m ∧
      inputs.map Input.toSeat = [⟨1, shortDocument⟩, ⟨5, shortDocument⟩] ∧
      ∀ input ∈ inputs, input.Owns Archive.zlib m (inputs.flatMap Input.pages) ⟨3, 0⟩ := by
  refine ⟨?_, ?_⟩
  · have hread : [shortFile].mapM Document.ofBytes? = .ok [shortDocument] := by
      rw [List.mapM_cons, List.mapM_nil, read_shortFile]
      rfl
    exact (merged_inputs_stay_apart .plain hread).1 _ rfl
  · obtain ⟨bytes, m, root, node, inputs, hbytes, hm, hseats, -, -, -, howns, -⟩ :=
      (merged_inputs_stay_apart .plain read_shortFiles).2 _ (by decide) merge_shortDocuments
        preserves_twoPages
    refine ⟨bytes, m, inputs, hbytes, hm, hseats, fun input hinput => ?_⟩
    have hshort : input.source = shortDocument := by
      have hmem : input.source ∈ [shortDocument, shortDocument] :=
        source_mem (hseats ▸ List.mem_map_of_mem hinput)
      simpa using hmem
    have hpage := (howns input hinput (hshort ▸ closed_shortDocument.intact _)).2 ⟨3, 0⟩
    rw [hshort, pages_shortDocument] at hpage
    exact hpage (by simp) (clean_shortDocument _)

/-! ## Missing objects -/

/-- A reference to no object keeps its number, so in the pool it is one to whatever another document
    has there. -/
theorem find?_pool_of_missing {docs : List Document} {seat other : Seat} {r : Ref} {o : Object}
    (hother : other ∈ seats 1 docs) (hmissing : seat.source.find? r = none)
    (ho : other.copy.find? r = some o) : (pool docs).objects.find? (seat.place r) = some o := by
  rw [Seat.place, renamed_of_missing hmissing]
  exact find?_pool.2 ⟨other, hother, ho⟩

/-- A document whose page shows a text. -/
def secret : Document :=
  onePage [("Parent", .ref ⟨2, 0⟩), ("Contents", .ref ⟨4, 0⟩)]
    [(⟨4, 0⟩, .stream [] "BT (secret) Tj ET".toUTF8.toList)]

/-- The same document without the text. -/
def hollow : Document :=
  onePage [("Parent", .ref ⟨2, 0⟩), ("Contents", .ref ⟨4, 0⟩)] []

/-- **A page that shows nothing in its own document shows the text of another.** -/
theorem missing_object_shows_another_document :
    hollow.views 2 = [.dict [("Type", .name "Page"), ("Contents", .null)]] ∧
      (merge Archive.zlib [secret, hollow]).map (Document.views 2) =
        .ok (List.replicate 2 (.dict [("Type", .name "Page"),
          ("Contents", .stream [] "BT (secret) Tj ET".toUTF8.toList)])) := by
  constructor
  · cbv
  · cbv

end Waybill.Pdf
