/-
  The pages of several files in one.

  * `Input` is a document among those that are merged, with its new references;
  * `Input.Carries`: a page stands in the merged document as in its own;
  * `Document.Binds`: a document has one catalog and one node of the page tree, and under it the
    pages of the documents, one document after the other.

  Statements: `Gathering.binds` (what a merged document holds), `merged_files_keep_pages`;
  `outlines_and_far_attributes_are_lost` (what pages lose).
-/
import Mathlib
import Waybill.Proofs.Pdf.Relocation
import Waybill.Proofs.Pdf.Saving

namespace Waybill.Pdf

/-! ## Inputs -/

/-- A document among those that are merged: its new references, and where its pages have come. -/
structure Input extends Seat where
  place : Ref → Ref
  pages : List Ref

/-- A page stands in the merged document as in its own, under the node of the page tree. -/
structure Input.Carries (input : Input) (zlib : Compressor) (m : Document) (root : Ref)
    (kids : List Ref) (r : Ref) : Prop where
  /-- The page has its own entries.  Each of its entries is that of the page, or of the nearest of
      the nodes above that has it, unless a reference at which it is looked for is captured. -/
  entries : ∃ page e : Dict, input.source.dict? r = some page ∧
    m.find? (input.place r) = some (.dict e) ∧ m.page? (input.place r) = some e ∧
    e.get? "Parent" = some (.ref root) ∧
    (∀ name v, name ≠ "Parent" → page.get? name = some v →
      e.get? name = some (v.rename input.place)) ∧
    ∀ name, name ≠ "Parent" → (name ∈ inheritable → input.source.Secure input.first [name] r) →
      e.get? name = (input.source.attribute? page name).map (·.rename input.place)
  /-- Where the page leads to nothing that is dropped, it shows what it showed, with streams in
      fewer bytes. -/
  shows : input.source.Clean input.first r → ∀ n,
    unfolded (m.shown kids) n (input.place r) = unfolded (input.source.packed zlib) n r
  /-- And these mean what they meant. -/
  means : input.source.Clean input.first r → Lossless zlib → input.source.Packable r → ∀ n,
    unfolded (meaning (m.shown kids)) n (input.place r) =
      unfolded (meaning (input.source.shown input.source.pages)) n r

/-- There is one catalog, and one node of the page tree, and under it are the pages of documents,
    one document after the other: all of a document in whose page tree no reference is captured. -/
structure Document.Binds (m : Document) (zlib : Compressor) (root : Ref) (inputs : List Input) :
    Prop where
  catalog : ∃! r, ∃ o, m.find? r = some o ∧ o.typeName? = some "Catalog"
  root_eq : m.pagesRef? = some root
  only_node : ∀ r o, m.find? r = some o → o.typeName? = some "Pages" → r = root
  node : ∃ e : Dict, m.find? root = some (.dict e) ∧ e.typeName? = some "Pages" ∧
    e.get? "Kids" = some (.array ((inputs.flatMap Input.pages).map .ref)) ∧
    e.get? "Count" = some (.int (inputs.flatMap Input.pages).length)
  parents : ∀ r ∈ inputs.flatMap Input.pages, ∃ e : Dict, m.find? r = some (.dict e) ∧
    e.typeName? = some "Page" ∧ e.get? "Parent" = some (.ref root)
  apart : inputs.Pairwise fun a b => a.pages.Disjoint b.pages
  pages : ∀ input ∈ inputs, input.source.Intact input.first →
    input.pages = input.source.pages.map input.place
  distinct : ∀ input ∈ inputs, input.source.Intact input.first → ∀ r ∈ input.source.pages,
    ∀ s ∈ input.source.pages, input.place r = input.place s → r = s
  carries : ∀ input ∈ inputs, input.source.Intact input.first → ∀ r ∈ input.source.pages,
    input.Carries zlib m root (inputs.flatMap Input.pages) r

namespace Gathering

variable {g : Gathering}

/-- A document that is gathered, with its new references. -/
def input (g : Gathering) (seat : Seat) : Input where
  toSeat := seat
  place := g.relocated seat
  pages := seat.copy.pages.map g.number

/-- The documents that are gathered. -/
def inputs (g : Gathering) : List Input :=
  (seats 1 g.docs).map g.input

theorem map_toSeat_inputs (g : Gathering) : g.inputs.map Input.toSeat = seats 1 g.docs := by
  rw [inputs, List.map_map]
  exact List.map_id _

theorem flatMap_pages_inputs (g : Gathering) : g.inputs.flatMap Input.pages = g.kids := by
  rw [inputs, List.flatMap_map, kids_eq_flatMap]
  rfl

theorem kids_merged (g : Gathering) :
    Dict.get? "Kids" (renameEntries g.number g.node) = some (.array (g.kids.map .ref)) := by
  rw [get?_renameEntries, g.kids_node, kids, Option.map_some, Object.rename, renameItems_eq_map,
    List.map_map, List.map_map]
  rfl

theorem parent_page (g : Gathering) (leaf : Ref × Dict) :
    Dict.get? "Parent" (renameEntries g.number (g.page leaf)) =
      some (.ref (g.number g.root.1)) := by
  rw [get?_renameEntries, page, Dict.get?_set, if_pos rfl]
  rfl

section
variable {seat : Seat} (hseat : seat ∈ seats 1 g.docs) (hi : seat.source.Intact seat.first)
include hseat hi

theorem pages_input : (g.input seat).pages = seat.source.pages.map (g.relocated seat) := by
  rw [input, pages_copy hseat hi, List.map_map]
  rfl

theorem eq_of_relocated_eq {r s : Ref} (hr : r ∈ seat.source.pages) (hs : s ∈ seat.source.pages)
    (heq : g.relocated seat r = g.relocated seat s) : r = s := by
  have hbound : ∀ {t}, t ∈ seat.source.pages → (g.bound.find? (seat.place t)).isSome := fun ht =>
    isSome_place hseat hi (Document.led_of_mem_pages ht) (Or.inl ht)
  exact place_injective hseat (Document.isSome_of_mem_pages hr) (Document.isSome_of_mem_pages hs)
    (number_injective (hbound hr) (hbound hs) heq)

end

section
variable {zlib : Compressor} {m : Document} (hm : m.Holds (g.merged zlib))
include hm

/-- There is one object of a type of which only one is kept. -/
theorem eq_of_type {r : Ref} {o : Object} {type : String} (h : m.find? r = some o)
    (htype : o.typeName? = some type) (hdropped : type ∈ Pool.dropped) (hpage : type ≠ "Page") :
    r = g.number g.catalog.1 ∧ type = "Catalog" ∨ r = g.number g.root.1 ∧ type = "Pages" := by
  obtain ⟨s, p, hp, rfl, hsame⟩ := exists_of_find?_merged hm h htype
  rcases type_cases hp with rfl | rfl | hother
  · rw [find?_catalog] at hp
    cases hp
    exact Or.inl ⟨rfl, Option.some.inj (hsame.symm.trans g.typeName?_top)⟩
  · rw [find?_root] at hp
    cases hp
    exact Or.inr ⟨rfl, Option.some.inj (hsame.symm.trans g.typeName?_node)⟩
  · rcases hother type hsame with h | h
    · exact (hpage h).elim
    · exact (h hdropped).elim

/-- A page has the entries that it had, under the new node. -/
theorem entries_merged {seat : Seat} (hseat : seat ∈ seats 1 g.docs)
    (hi : seat.source.Intact seat.first) {r : Ref} (hr : r ∈ seat.source.pages) :
    ∃ page e : Dict, seat.source.dict? r = some page ∧
      m.find? (g.relocated seat r) = some (.dict e) ∧ m.page? (g.relocated seat r) = some e ∧
      e.get? "Parent" = some (.ref (g.number g.root.1)) ∧
      ∀ name, name ≠ "Parent" → (name ∈ inheritable → seat.source.Secure seat.first [name] r) →
        e.get? name = (seat.source.attribute? page name).map (·.rename (g.relocated seat)) := by
  obtain ⟨page, hdict, -⟩ := Document.exists_dict_of_mem_pages hr
  obtain ⟨full, hleaf, hfull⟩ := exists_leaf hseat hi hr
  refine ⟨page, _, hdict, find?_merged_dict hm (found_leaf zlib hleaf) (find?_leaf hleaf),
    page?_merged hm hleaf, g.parent_page _, fun name hname hsecure => ?_⟩
  rw [get?_renameEntries, Gathering.page, Dict.get?_set, if_neg hname.symm,
    entry_of_leaf hseat hi hr hdict hfull hsecure, Option.map_map]
  exact congrArg (Option.map · _) (funext fun o => rename_rename seat.place g.number o)

theorem carries {seat : Seat} (hseat : seat ∈ seats 1 g.docs)
    (hi : seat.source.Intact seat.first) {r : Ref} (hr : r ∈ seat.source.pages) :
    (g.input seat).Carries zlib m (g.number g.root.1) g.kids r where
  entries := by
    obtain ⟨page, e, hdict, hfind, hpage, hparent, hentries⟩ := entries_merged hm hseat hi hr
    refine ⟨page, e, hdict, hfind, hpage, hparent, fun name v hname hv => ?_, hentries⟩
    have hown : seat.source.attribute? page name = some v := by
      unfold Document.attribute?
      split
      · rw [List.findSome?_cons, hv]
      · exact hv
    rw [hentries name hname fun _ => Document.secure_of_own hdict hv, hown]
    rfl
  shows hclean n := (copied hseat hi hm hr hclean).unfolded n
  means hclean hz hpackable n := (copied_meaning hseat hi hm hr hclean hz hpackable).unfolded n

/-- A merged document has the pages of the documents. -/
theorem binds : m.Binds zlib (g.number g.root.1) g.inputs where
  catalog := by
    refine ⟨g.number g.catalog.1, ⟨_, find?_merged_catalog hm, ?_⟩, fun r ⟨o, ho, htype⟩ => ?_⟩
    · exact (typeName?_renameEntries _ _).trans g.typeName?_top
    · exact ((eq_of_type hm ho htype (by decide) (by decide)).resolve_right
        fun h => absurd h.2 (by decide)).1
  root_eq := pagesRef?_merged hm
  only_node r o ho htype :=
    ((eq_of_type hm ho htype (by decide) (by decide)).resolve_left
      fun h => absurd h.2 (by decide)).1
  node := by
    refine ⟨_, find?_merged_root hm, (typeName?_renameEntries _ _).trans g.typeName?_node, ?_, ?_⟩
    · rw [g.kids_merged, flatMap_pages_inputs]
    · rw [get?_renameEntries, g.count_node, flatMap_pages_inputs, kids, List.length_map]
      rfl
  parents := by
    intro r hr
    rw [flatMap_pages_inputs] at hr
    obtain ⟨leaf, hleaf, rfl⟩ := List.mem_map.1 hr
    exact ⟨_, find?_merged_dict hm (found_leaf zlib hleaf) (find?_leaf hleaf),
      (typeName?_renameEntries _ _).trans (typeName?_page hleaf), g.parent_page leaf⟩
  apart := List.pairwise_map.2 g.pairwise_pages
  pages := by
    intro input hinput hi
    obtain ⟨seat, hseat, rfl⟩ := List.mem_map.1 hinput
    exact pages_input hseat hi
  distinct := by
    intro input hinput hi r hr s hs
    obtain ⟨seat, hseat, rfl⟩ := List.mem_map.1 hinput
    exact eq_of_relocated_eq hseat hi hr hs
  carries := by
    intro input hinput hi r hr
    obtain ⟨seat, hseat, rfl⟩ := List.mem_map.1 hinput
    rw [flatMap_pages_inputs]
    exact carries hm hseat hi hr

end

end Gathering

/-! ## Files -/

/-- Files are read one by one. -/
theorem readFiles_eq_ok {n : Nat} {files : List ByteArray} {docs : List Document}
    (h : files.mapM Document.ofBytes? = .ok docs) : readFiles n files = .ok docs := by
  rw [mapM_eq_ok] at h
  induction h generalizing n with
  | nil => rfl
  | cons h _ ih =>
    rw [readFiles, h]
    change (readFiles (n + 1) _).bind _ = _
    rw [ih]
    rfl

/-- The first file that cannot be read is told by its index. -/
theorem readFiles_eq_error {n : Nat} {done rest : List ByteArray} {file : ByteArray}
    {e : Unreadable} (hdone : ∀ file ∈ done, ∃ d, Document.ofBytes? file = .ok d)
    (h : Document.ofBytes? file = .error e) :
    readFiles n (done ++ file :: rest) = .error (.unreadable (n + done.length) e.message) := by
  induction done generalizing n with
  | nil =>
    rw [List.nil_append, readFiles, h]
    rfl
  | cons first done ih =>
    obtain ⟨⟨d, hd⟩, hdone⟩ := List.forall_mem_cons.1 hdone
    rw [List.cons_append, readFiles, hd]
    change (readFiles (n + 1) _).bind _ = _
    rw [ih hdone, List.length_cons, Nat.add_assoc, Nat.add_comm 1]
    rfl

theorem mergeFiles_eq (w : Writing) {files : List ByteArray} (h : 2 ≤ files.length) :
    mergeFiles w files = (readFiles 0 files).bind fun docs => (merge w.zlib docs).bind fun d =>
      (w.save d).mapError .unwritable := by
  match files, h with
  | first :: second :: files, _ =>
    unfold mergeFiles
    cases readFiles 0 (first :: second :: files) <;> rfl

theorem mergeFiles_of_merge (w : Writing) {files : List ByteArray} (h : 2 ≤ files.length)
    {docs : List Document} (hread : files.mapM Document.ofBytes? = .ok docs) :
    mergeFiles w files =
      (merge w.zlib docs).bind fun d => (w.save d).mapError .unwritable := by
  rw [mergeFiles_eq w h, readFiles_eq_ok hread]
  rfl

theorem ordered_of_read {files : List ByteArray} {docs : List Document}
    (hread : files.mapM Document.ofBytes? = .ok docs) : ∀ d ∈ docs, d.objects.Ascending := by
  intro d hd
  obtain ⟨file, -, hfile⟩ := exists_row_of_mapM hread hd
  exact ascending_objects hfile

/-- A document has a dictionary of a type. -/
def Document.HasType (d : Document) (type : String) : Prop :=
  ∃ r o, d.find? r = some o ∧ o.typeName? = some type

/-- What is merged is in the file, where that can be read again. -/
theorem Writing.Preserves.exists_file {w : Writing} {d : Document} (hp : w.Preserves d)
    {files : List ByteArray} (htwo : 2 ≤ files.length) {docs : List Document}
    (hread : files.mapM Document.ofBytes? = .ok docs) (h : merge w.zlib docs = .ok d) :
    ∃ bytes m, mergeFiles w files = .ok bytes ∧ Document.ofBytes? bytes = .ok m ∧ m.Holds d := by
  obtain ⟨bytes, m, hsave, hm, hholds⟩ := hp
  refine ⟨bytes, m, ?_, hm, hholds⟩
  rw [mergeFiles_of_merge w htwo hread, h, Except.bind, hsave]
  rfl

/-- **Two or more files are merged page by page, or the first that cannot be read is told.**  What
    is merged is what is read from the file, where saving keeps it; where it cannot be saved, that
    is told. -/
theorem merged_files_keep_pages (w : Writing) {files : List ByteArray} (htwo : 2 ≤ files.length) :
    (∀ docs, files.mapM Document.ofBytes? = .ok docs →
      (∃ d ∈ docs, d.HasType "Catalog") → (∃ d ∈ docs, d.HasType "Pages") →
      ∃ d, merge w.zlib docs = .ok d ∧
        (w.Preserves d → ∃ bytes m root inputs, mergeFiles w files = .ok bytes ∧
          Document.ofBytes? bytes = .ok m ∧ inputs.map Input.toSeat = seats 1 docs ∧
          m.Binds w.zlib root inputs) ∧
        ∀ detail, w.save d = .error detail →
          mergeFiles w files = .error (.unwritable detail)) ∧
    ∀ done file rest e, files = done ++ file :: rest →
      (∀ file ∈ done, ∃ d, Document.ofBytes? file = .ok d) → Document.ofBytes? file = .error e →
      mergeFiles w files = .error (.unreadable done.length e.message) := by
  constructor
  · intro docs hread hcatalog hnode
    obtain ⟨g, rfl⟩ := exists_gathering (ordered_of_read hread) hcatalog hnode
    refine ⟨_, g.merge_eq w.zlib, fun hp => ?_, fun detail hsave => ?_⟩
    · obtain ⟨bytes, m, hfile, hm, hholds⟩ := hp.exists_file htwo hread (g.merge_eq w.zlib)
      exact ⟨bytes, m, _, g.inputs, hfile, hm, g.map_toSeat_inputs, g.binds hholds⟩
    · rw [mergeFiles_of_merge w htwo hread, g.merge_eq, Except.bind, hsave]
      rfl
  · rintro done file rest e rfl hdone hfile
    rw [mergeFiles_eq w htwo, readFiles_eq_error hdone hfile, Nat.zero_add]
    rfl

/-! ## A file -/

/-- A document of one page. -/
def onePage (rest : Dict) (more : Objects) : Document where
  version := "1.4"
  trailer := [("Root", .ref ⟨1, 0⟩), ("Size", .int (4 + more.length))]
  objects :=
    (⟨1, 0⟩, .dict [("Type", .name "Catalog"), ("Pages", .ref ⟨2, 0⟩)]) ::
    (⟨2, 0⟩, .dict [("Type", .name "Pages"), ("Kids", .array [.ref ⟨3, 0⟩])]) ::
    (⟨3, 0⟩, .dict (("Type", .name "Page") :: rest)) :: more

/-- A document whose page shows a text. -/
def shortDocument : Document :=
  onePage [("Parent", .ref ⟨2, 0⟩), ("Contents", .ref ⟨4, 0⟩)] [(⟨4, 0⟩, .string "text" false)]

/-- The document in a file. -/
def shortFile : ByteArray :=
  ("%PDF-1.4\n" ++
    "1 0 obj<</Type/Catalog/Pages 2 0 R>>endobj\n" ++
    "2 0 obj<</Type/Pages/Kids[3 0 R]>>endobj\n" ++
    "3 0 obj<</Type/Page/Parent 2 0 R/Contents 4 0 R>>endobj\n" ++
    "4 0 obj(text)endobj\n" ++
    "xref\n0 5\n0000000000 65535 f \n0000000009 00000 n \n0000000052 00000 n \n" ++
    "0000000093 00000 n \n0000000149 00000 n \n" ++
    "trailer<</Root 1 0 R/Size 5>>\nstartxref\n169\n%%EOF\n").toUTF8

theorem read_shortFile : Document.ofBytes? shortFile = .ok shortDocument := by
  decide +kernel

theorem read_shortFiles :
    [shortFile, shortFile].mapM Document.ofBytes? = .ok [shortDocument, shortDocument] := by
  rw [List.mapM_cons, List.mapM_cons, List.mapM_nil, read_shortFile]
  rfl

theorem closed_shortDocument : shortDocument.Closed := by decide

theorem pages_shortDocument : shortDocument.pages = [⟨3, 0⟩] := by cbv

/-- The page leads to its text only. -/
theorem clean_shortDocument (n : Nat) : shortDocument.Clean n ⟨3, 0⟩ := by
  refine Document.clean_of_subset [⟨3, 0⟩, ⟨4, 0⟩] (by simp) ?_ ?_
  · simp only [List.forall_mem_cons]
    refine ⟨closed_shortDocument.stays (Or.inl (by simp [pages_shortDocument])) n,
      closed_shortDocument.stays (Or.inr ⟨_, rfl, ?_⟩) n, by simp⟩
    exact fun type h => by cases h
  · simp only [pages_shortDocument]
    decide

/-- The document twice, merged. -/
def twoPages : Document where
  version := "1.5"
  trailer := [("Root", .ref ⟨1, 0⟩)]
  objects := [
    (⟨1, 0⟩, .dict [("Type", .name "Catalog"), ("Pages", .ref ⟨2, 0⟩)]),
    (⟨2, 0⟩, .dict [("Type", .name "Pages"), ("Kids", .array [.ref ⟨3, 0⟩, .ref ⟨5, 0⟩]),
      ("Count", .int 2)]),
    (⟨3, 0⟩, .dict [("Type", .name "Page"), ("Parent", .ref ⟨2, 0⟩), ("Contents", .ref ⟨4, 0⟩)]),
    (⟨4, 0⟩, .string "text" false),
    (⟨5, 0⟩, .dict [("Type", .name "Page"), ("Parent", .ref ⟨2, 0⟩), ("Contents", .ref ⟨6, 0⟩)]),
    (⟨6, 0⟩, .string "text" false)]

theorem merge_shortDocuments :
    merge Writing.plain.zlib [shortDocument, shortDocument] = .ok twoPages := by cbv

theorem preserves_twoPages : Writing.plain.Preserves twoPages := by
  have hplain : ∀ e ∈ twoPages.objects, isStructural e.2 = false := by decide
  have hwritable : twoPages.Writable := by decide +kernel
  exact hwritable.preserves fun r o _ h => hplain _ (Objects.mem_of_find? h)

theorem short_files_are_merged :
    (∃ bytes m root inputs, mergeFiles .plain [shortFile, shortFile] = .ok bytes ∧
      Document.ofBytes? bytes = .ok m ∧
      inputs.map Input.toSeat = [⟨1, shortDocument⟩, ⟨5, shortDocument⟩] ∧
      m.Binds Archive.zlib root inputs) ∧
    (∀ n, shortDocument.Intact n ∧ shortDocument.Clean n ⟨3, 0⟩) ∧ ⟨3, 0⟩ ∈ shortDocument.pages ∧
    Lossless Archive.zlib ∧
    mergeFiles .plain [shortFile, .empty] = .error (.unreadable 1 "invalid file header") := by
  refine ⟨?_, fun n => ⟨closed_shortDocument.intact n, clean_shortDocument n⟩,
    by simp [pages_shortDocument], lossless_zlib, ?_⟩
  · obtain ⟨d, hd, hbinds, -⟩ := (merged_files_keep_pages .plain
      (by decide : 2 ≤ [shortFile, shortFile].length)).1 _ read_shortFiles
      ⟨shortDocument, by simp, ⟨1, 0⟩, _, rfl, rfl⟩ ⟨shortDocument, by simp, ⟨2, 0⟩, _, rfl, rfl⟩
    obtain rfl := Except.ok.inj (merge_shortDocuments.symm.trans hd)
    exact hbinds preserves_twoPages
  · exact (merged_files_keep_pages .plain
      (by decide : 2 ≤ [shortFile, .empty].length)).2 [shortFile]
      .empty [] .header rfl (by simpa using ⟨_, read_shortFile⟩) (by decide +kernel)

/-! ## What pages lose -/

/-- A document whose page refers to an outline. -/
def outlined : Document :=
  onePage [("Parent", .ref ⟨2, 0⟩), ("Contents", .ref ⟨4, 0⟩)]
    [(⟨4, 0⟩, .dict [("Type", .name "Outline")])]

/-- A document whose page is below 65 nodes, the topmost of which has a size. -/
def deep : Document where
  version := "1.4"
  trailer := [("Root", .ref ⟨1, 0⟩)]
  objects :=
    (⟨1, 0⟩, .dict [("Type", .name "Catalog"), ("Pages", .ref ⟨2, 0⟩)]) ::
    (⟨2, 0⟩, .dict [("Type", .name "Pages"), ("Kids", .array [.ref ⟨3, 0⟩]),
      ("MediaBox", .array [.int 9])]) ::
    (List.range 64).map (fun i => (⟨3 + i, 0⟩, .dict [("Type", .name "Pages"),
      ("Parent", .ref ⟨2 + i, 0⟩), ("Kids", .array [.ref ⟨4 + i, 0⟩])])) ++
    [(⟨67, 0⟩, .dict [("Type", .name "Page"), ("Parent", .ref ⟨66, 0⟩)])]

theorem pages_onePage : (onePage [] []).pages = [⟨3, 0⟩] := by cbv

theorem pages_deep : deep.pages = [⟨67, 0⟩] := by cbv

/-- No page of these documents takes over a size. -/
theorem attribute?_mediaBox {d : Document} (hd : d ∈ [onePage [] [], deep]) {r : Ref}
    (hr : r ∈ d.pages) {page : Dict} (hpage : d.dict? r = some page) :
    d.attribute? page "MediaBox" = none := by
  have hnone : ((onePage [] []).dict? ⟨3, 0⟩).all
        (fun page => ((onePage [] []).attribute? page "MediaBox").isNone) ∧
      (deep.dict? ⟨67, 0⟩).all fun page => (deep.attribute? page "MediaBox").isNone := by
    decide +kernel
  rcases List.mem_pair.1 hd with rfl | rfl
  · rw [pages_onePage, List.mem_singleton] at hr
    rw [hr] at hpage
    simpa [hpage] using hnone.1
  · rw [pages_deep, List.mem_singleton] at hr
    rw [hr] at hpage
    simpa [hpage] using hnone.2

/-- A page loses what it refers to of the type `Outline`, and an attribute of a node that 64 others
    lie below. -/
theorem outlines_and_far_attributes_are_lost :
    (outlined.views 2 =
        [.dict [("Type", .name "Page"), ("Contents", .dict [("Type", .name "Outline")])]] ∧
      (merge Archive.zlib [onePage [] [], outlined]).map (Document.views 2) = .ok
        [.dict [("Type", .name "Page")], .dict [("Type", .name "Page"), ("Contents", .null)]]) ∧
    deep.pages = [⟨67, 0⟩] ∧
      (deep.above 65 (some ⟨66, 0⟩)).findSome? (Dict.get? "MediaBox") = some (.array [.int 9]) ∧
      ∃ m root inputs, merge Archive.zlib [onePage [] [], deep] = .ok m ∧
        inputs.map Input.toSeat = [⟨1, onePage [] []⟩, ⟨4, deep⟩] ∧
        m.Binds Archive.zlib root inputs ∧ ∀ input ∈ inputs, ∀ r ∈ input.source.pages, ∃ e : Dict,
          m.page? (input.place r) = some e ∧ e.get? "MediaBox" = none := by
  refine ⟨⟨by cbv, by cbv⟩, pages_deep, by cbv, ?_⟩
  have hordered : ∀ d ∈ [onePage [] [], deep], d.objects.Ascending := by
    unfold Objects.Ascending
    decide +kernel
  have hclosed : ∀ d ∈ [onePage [] [], deep], d.Closed := by decide +kernel
  obtain ⟨g, hdocs⟩ := exists_gathering hordered
    ⟨onePage [] [], by simp, ⟨1, 0⟩, _, rfl, rfl⟩ ⟨onePage [] [], by simp, ⟨2, 0⟩, _, rfl, rfl⟩
  have hbinds := g.binds (Document.Holds.refl (g.merged Archive.zlib))
  have hinputs : g.inputs.map Input.toSeat = seats 1 [onePage [] [], deep] :=
    hdocs ▸ g.map_toSeat_inputs
  refine ⟨_, _, g.inputs, hdocs ▸ g.merge_eq _, hinputs, hbinds, fun input hinput r hr => ?_⟩
  have hsource : input.source ∈ [onePage [] [], deep] :=
    source_mem (hinputs ▸ List.mem_map_of_mem hinput)
  have hall := hclosed _ hsource
  obtain ⟨page, e, hpage, -, hmerged, -, -, hentries⟩ :=
    (hbinds.carries input hinput (hall.intact _) r hr).entries
  refine ⟨e, hmerged, ?_⟩
  rw [hentries "MediaBox" (by decide) fun _ => hall.secure _ _ r,
    attribute?_mediaBox hsource hr hpage]
  rfl

end Waybill.Pdf
