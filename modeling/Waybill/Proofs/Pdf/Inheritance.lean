/-
  Attributes in force on a page.

  Of an attribute that a page may have from above, the value in force is that of the page itself or,
  if it has none, of the nearest node above that has one.  There is no end to the nodes above a page
  when they lead back to themselves, but only so many of them are different.

  * `Document.node?` is the node above, `Above` are all nodes above;
  * `Finds` is a walk upwards to the value of an attribute, `InForce` its value;
  * `Follows`: references are followed from a value, over what stays;
  * `Input.KeepsInForce`: what is in force on a page is in force on the merged page.

  Statements: `Finds.nodup` (no walk passes a node twice), `attribute?_eq_some_iff` (what a page
  takes over is in force), `found_of_follows` (the trailers lead to what a value leads to),
  `inForce_merged` (nothing is lent to merged pages), `attributes_stay_in_force`;
  `outline_resources_are_lost`.
-/
import Waybill.Proofs.Pdf.Binding

namespace Waybill.Pdf

namespace Document

variable {d : Document} {name : String} {e node : Dict} {path : List Dict} {v : Object}

/-! ## Walks upwards -/

/-- The node above. -/
def node? (d : Document) (e : Dict) : Option Dict :=
  e.parent?.bind d.dict?

/-- The nodes above. -/
inductive Above (d : Document) (e : Dict) : Dict → Prop
  | next {node : Dict} (h : d.node? e = some node) : Above d e node
  | step {node next : Dict} (h : Above d e node) (hnext : d.node? node = some next) : Above d e next

/-- There are at most so many nodes above, however often they lead back to themselves. -/
def Within (d : Document) (n : Nat) (e : Dict) : Prop :=
  ∃ nodes : List Dict, nodes.length ≤ n ∧ ∀ node, d.Above e node → node ∈ nodes

/-- A walk upwards to an attribute: the nodes on the way, the last of which has it. -/
inductive Finds (d : Document) (name : String) : Dict → List Dict → Object → Prop
  | own {e : Dict} {v : Object} (h : e.get? name = some v) : Finds d name e [] v
  | above {e node : Dict} {path : List Dict} {v : Object} (hnone : e.get? name = none)
    (hnode : d.node? e = some node) (h : Finds d name node path v) :
    Finds d name e (node :: path) v

/-- The value of an attribute that is in force. -/
def InForce (d : Document) (name : String) (e : Dict) (v : Object) : Prop :=
  ∃ path, d.Finds name e path v

theorem Above.of_node? (hnode : d.node? e = some node) {other : Dict} (h : d.Above node other) :
    d.Above e other := by
  induction h with
  | next h => exact .step (.next hnode) h
  | step _ hnext ih => exact .step ih hnext

theorem Finds.above_of_mem (h : d.Finds name e path v) : ∀ node ∈ path, d.Above e node := by
  induction h with
  | own => simp
  | above _ hnode _ ih =>
    exact List.forall_mem_cons.2 ⟨.next hnode, fun node hmem => .of_node? hnode (ih node hmem)⟩

/-- There is one walk to an attribute. -/
theorem Finds.unique (h : d.Finds name e path v) {path' : List Dict} {v' : Object}
    (h' : d.Finds name e path' v') : path = path' ∧ v = v' := by
  induction h generalizing path' with
  | own hown =>
    cases h' with
    | own hown' => exact ⟨rfl, Option.some.inj (hown.symm.trans hown')⟩
    | above hnone => cases hnone.symm.trans hown
  | above hnone hnode _ ih =>
    cases h' with
    | own hown => cases hnone.symm.trans hown
    | above _ hnode' hrest =>
      obtain rfl := Option.some.inj (hnode.symm.trans hnode')
      obtain ⟨rfl, rfl⟩ := ih hrest
      exact ⟨rfl, rfl⟩

/-- The rest of a walk, from a node on the way. -/
theorem Finds.exists_rest (h : d.Finds name e path v) : ∀ node ∈ path,
    ∃ rest, d.Finds name node rest v ∧ rest.length < path.length := by
  induction h with
  | own => simp
  | above _ _ hrest ih =>
    refine List.forall_mem_cons.2 ⟨⟨_, hrest, by simp⟩, fun node hmem => ?_⟩
    obtain ⟨rest, hfinds, hlength⟩ := ih node hmem
    exact ⟨rest, hfinds, hlength.trans (by simp)⟩

/-- No walk passes a node twice: from there on it would go on as before, without end. -/
theorem Finds.nodup (h : d.Finds name e path v) : path.Nodup := by
  induction h with
  | own => exact .nil
  | above _ _ hrest ih =>
    refine List.nodup_cons.2 ⟨fun hmem => ?_, ih⟩
    obtain ⟨rest, hagain, hlength⟩ := hrest.exists_rest _ hmem
    rw [(hrest.unique hagain).1] at hlength
    exact Nat.lt_irrefl _ hlength

theorem Finds.length_le {n : Nat} (h : d.Finds name e path v) (hwithin : d.Within n e) :
    path.length ≤ n := by
  obtain ⟨nodes, hlength, hnodes⟩ := hwithin
  have hsubset : path ⊆ nodes := fun node hmem => hnodes node (h.above_of_mem node hmem)
  exact (List.subperm_of_subset h.nodup hsubset).length_le.trans hlength

/-- What the node above has is in force on a page that has nothing itself. -/
theorem inForce_of_parent {r : Ref} (hnone : e.get? name = none) (hparent : e.parent? = some r)
    (hnode : d.find? r = some (.dict node)) (hv : node.get? name = some v) :
    d.InForce name e v := by
  refine ⟨[node], .above hnone ?_ (.own hv)⟩
  rw [node?, hparent, Option.bind_some, dict?_of_find? hnode]

/-! ## What a page takes over -/

theorem above_of_node? (n : Nat) (hnode : d.node? e = some node) :
    d.above (n + 1) e.parent? = node :: d.above n node.parent? := by
  obtain ⟨r, hparent, hdict⟩ := Option.bind_eq_some_iff.1 hnode
  rw [hparent, above, hdict]

theorem above_of_no_node (n : Nat) (hnode : d.node? e = none) : d.above n e.parent? = [] := by
  unfold node? at hnode
  cases n with
  | zero => rfl
  | succ n =>
    cases hparent : e.parent? with
    | none => simp [above]
    | some r =>
      rw [hparent, Option.bind_some] at hnode
      simp [above, hnode]

/-- A walk that is short enough is made. -/
theorem Finds.findSome?_above {n : Nat} (h : d.Finds name e path v) (hn : path.length ≤ n) :
    (e :: d.above n e.parent?).findSome? (Dict.get? name) = some v := by
  induction h generalizing n with
  | own hown => rw [List.findSome?_cons, hown]
  | above hnone hnode _ ih =>
    obtain ⟨n, rfl⟩ := Nat.exists_eq_succ_of_ne_zero (Nat.ne_zero_of_lt hn)
    rw [List.findSome?_cons, hnone, above_of_node? n hnode]
    exact ih (Nat.le_of_succ_le_succ hn)

theorem inForce_of_findSome? {n : Nat}
    (h : (e :: d.above n e.parent?).findSome? (Dict.get? name) = some v) : d.InForce name e v := by
  induction n generalizing e with
  | zero => exact ⟨[], .own (by simpa [above] using h)⟩
  | succ n ih =>
    rw [List.findSome?_cons] at h
    cases hown : e.get? name with
    | some w =>
      rw [hown] at h
      exact ⟨[], .own (hown.trans h)⟩
    | none =>
      rw [hown] at h
      cases hnode : d.node? e with
      | none => simp [above_of_no_node _ hnode] at h
      | some node =>
        rw [above_of_node? n hnode] at h
        obtain ⟨path, hrest⟩ := ih h
        exact ⟨_, .above hown hnode hrest⟩

/-- What a page takes over from at most so many nodes is in force. -/
theorem attribute?_eq_some_iff (hname : name ∈ inheritable) (hwithin : d.Within depthLimit e) :
    d.attribute? e name = some v ↔ d.InForce name e v := by
  rw [attribute?, if_pos hname]
  constructor
  · exact inForce_of_findSome?
  · rintro ⟨path, h⟩
    exact h.findSome?_above (h.length_le hwithin)

/-- References are followed from a value, over pages and objects that stay, with streams in fewer
    bytes. -/
inductive Follows (zlib : Compressor) (d : Document) (n : Nat) (v : Object) : Ref → Prop
  | here {r : Ref} (hr : r ∈ v.refs) (hstays : d.Stays n r) : Follows zlib d n v r
  | next {r s : Ref} {o : Object} (h : Follows zlib d n v r) (ho : d.packed zlib r = some o)
    (hs : s ∈ o.refs) (hstays : d.Stays n s) : Follows zlib d n v s

variable {zlib : Compressor}

theorem Follows.stays {n : Nat} {r : Ref} (h : Follows zlib d n v r) : d.Stays n r := by
  cases h with
  | here _ hstays => exact hstays
  | next _ _ _ hstays => exact hstays

/-- Where a value leads to nothing that is dropped, all of it is followed. -/
theorem follows_of_clean {n : Nat} {r s : Ref} (hr : r ∈ v.refs) (hclean : d.Clean n r)
    (h : Leads (d.packed zlib) r s) : Follows zlib d n v s := by
  induction h with
  | refl => exact .here hr (hclean r .refl)
  | step h ho ht ih => exact .next ih ho ht (hclean _ (leads_of_packed (h.step ho ht)))

end Document

/-! ## Merged pages -/

/-- What is in force on a page is in force on the merged page, and nothing else. -/
structure Input.KeepsInForce (input : Input) (zlib : Compressor) (m : Document) (kids : List Ref)
    (page e : Dict) (name : String) : Prop where
  inForce : ∀ v', m.InForce name e v' ↔
    ∃ v, input.source.InForce name page v ∧ v' = v.rename input.place
  /-- What the references of the value lead to over what stays is there. -/
  follows : ∀ v, input.source.InForce name page v → ∀ r,
    Document.Follows zlib input.source input.first v r → m.shown kids (input.place r) =
      (input.source.packed zlib r).map (·.rename input.place)
  /-- Where they lead to nothing that is dropped, the value shows what it showed, with streams in
      fewer bytes. -/
  shows : ∀ v, input.source.InForce name page v →
    (∀ r ∈ v.refs, input.source.Clean input.first r) → ∀ n,
    (v.rename input.place).filled (unfolded (m.shown kids) n) =
      v.filled (unfolded (input.source.packed zlib) n)
  /-- And these mean what they meant. -/
  means : ∀ v, input.source.InForce name page v →
    (∀ r ∈ v.refs, input.source.Clean input.first r) → Lossless zlib →
    (∀ r ∈ v.refs, input.source.Packable r) → ∀ n,
    (v.rename input.place).filled (unfolded (meaning (m.shown kids)) n) =
      v.filled (unfolded (meaning (input.source.shown input.source.pages)) n)

namespace Gathering

variable {g : Gathering} {zlib : Compressor} {m : Document} (hm : m.Holds (g.merged zlib))

section
include hm

/-- Nothing is lent to a merged page: an attribute in force on it is its own. -/
theorem inForce_merged {name : String} (hname : name ∈ inheritable) {e : Dict} {v : Object}
    (hparent : e.get? "Parent" = some (.ref (g.number g.root.1))) :
    m.InForce name e v ↔ e.get? name = some v := by
  constructor
  · rintro ⟨path, h⟩
    cases h with
    | own hown => exact hown
    | above _ hnode h =>
      have hroot : m.node? e = some (renameEntries g.number g.node) := by
        rw [Document.node?, Dict.parent?, hparent, Option.bind_some, Object.ref?, Option.bind_some,
          Document.dict?_of_find? (find?_merged_root hm)]
      obtain rfl := Option.some.inj (hroot.symm.trans hnode)
      cases h with
      | own hown =>
        rw [get?_renameEntries, g.inheritable_node hname] at hown
        cases hown
      | above _ hnode' =>
        rw [Document.node?, parent?_renameEntries, g.parent?_node] at hnode'
        cases hnode'
  · exact fun h => ⟨[], .own h⟩

end

section
variable {seat : Seat} (hseat : seat ∈ seats 1 g.docs) (hi : seat.source.Intact seat.first)
include hseat hi

/-- The trailers lead to what is followed from an attribute of a page. -/
theorem found_of_follows {r s : Ref} {page full : Dict} {name : String} {v : Object}
    (hr : r ∈ seat.source.pages) (hpage : seat.source.page? r = some page)
    (hv : page.get? name = some v) (hname : name ≠ "Parent")
    (hleaf : (seat.place r, full) ∈ g.leaves) (hfull : full.get? name = some (v.rename seat.place))
    (h : Document.Follows zlib seat.source seat.first v s) :
    seat.source.Led s ∧ g.Found zlib (seat.place s) := by
  induction h with
  | @here s hs hstays =>
    have hled := Document.led_of_mem_page? (Document.led_of_mem_pages hr) hpage
      (mem_refsOfEntries hv hs) hstays.keeps.isSome
    refine ⟨hled, (found_leaf zlib hleaf).next (find?_leaf hleaf) ?_
      (isSome_place hseat hi hled hstays.keeps)⟩
    have hentry : (g.page (seat.place r, full)).get? name = some (v.rename seat.place) := by
      rw [Gathering.page, Dict.get?_set, if_neg hname.symm, hfull]
    refine mem_refsOfEntries hentry ?_
    rw [refs_rename]
    exact List.mem_map_of_mem hs
  | next h ho hs hstays ih =>
    exact found_step hseat hi ih.1 ih.2 h.stays ho hs hstays.keeps

include hm

/-- **What is in force on a page is in force on the merged page.** -/
theorem keepsInForce {r : Ref} (hr : r ∈ seat.source.pages) {page e : Dict}
    (hdict : seat.source.dict? r = some page) (hmerged : m.dict? (g.relocated seat r) = some e)
    (hwithin : seat.source.Within depthLimit page) {name : String} (hname : name ∈ inheritable)
    (hsecure : seat.source.Secure seat.first [name] r) :
    (g.input seat).KeepsInForce zlib m g.kids page e name := by
  obtain ⟨own, hown⟩ := Document.exists_page_of_mem_pages hr
  obtain ⟨full, hleaf, hfull⟩ := exists_leaf hseat hi hr
  obtain ⟨page', e', hdict', hfind, -, hparent, hentries⟩ := entries_merged hm hseat hi hr
  obtain rfl := Option.some.inj (hdict.symm.trans hdict')
  obtain rfl := Option.some.inj (hmerged.symm.trans (Document.dict?_of_find? hfind))
  have hne : name ≠ "Parent" := by
    rintro rfl
    exact absurd hname (by decide)
  have hstands : ∀ v, seat.source.InForce name page v → ∀ s,
      Document.Follows zlib seat.source seat.first v s → m.shown g.kids (g.relocated seat s) =
        (seat.source.packed zlib s).map (·.rename (g.relocated seat)) := by
    intro v hv s hs
    rw [← Document.attribute?_eq_some_iff hname hwithin] at hv
    have hgathered := entry_of_leaf hseat hi hr hdict hfull fun _ => hsecure
    rw [hv] at hgathered
    rw [← Document.get?_page? hdict hown] at hv
    obtain ⟨hled, hfound⟩ := found_of_follows hseat hi hr hown hv hne hleaf hgathered hs
    exact shown_relocated hseat hi hm hled hfound hs.stays
  refine ⟨fun v' => ?_, hstands, fun v hv hclean n => ?_, fun v hv hclean hz hpackable n => ?_⟩
  · rw [inForce_merged hm hname hparent, hentries name hne fun _ => hsecure,
      Option.map_eq_some_iff]
    exact exists_congr fun v =>
      and_congr (Document.attribute?_eq_some_iff hname hwithin) eq_comm
  · rw [filled_rename]
    refine filled_congr v fun s hs => Copied.unfolded (fun t ht => ?_) n
    exact hstands v hv t (Document.follows_of_clean hs (hclean s hs) ht)
  · rw [filled_rename]
    refine filled_congr v fun s hs => Copied.unfolded (fun t ht => ?_) n
    have ht := Document.leads_packed_of_meaning hz (hpackable s hs) ht
    exact Document.meaning_packed hz (hpackable s hs) (Document.leads_of_packed ht)
      (hstands v hv t (Document.follows_of_clean hs (hclean s hs) ht))

end

end Gathering

theorem Gathering.exists_hasType {g : Gathering} {type : String} {found : Ref × Dict}
    (h : (pool g.docs).first? type = some found) : ∃ d ∈ g.docs, d.HasType type := by
  obtain ⟨hfind, htype⟩ := of_first? h
  obtain ⟨seat, hseat, hcopy⟩ := find?_pool.1 hfind
  obtain ⟨s, o, ho, -, hsame⟩ :=
    Document.exists_of_find?_renumber (g.ordered _ (source_mem hseat)) hcopy
  exact ⟨seat.source, source_mem hseat, s, o, ho, hsame.symm.trans htype⟩

/-- **Pages keep the attributes in force.** -/
theorem attributes_stay_in_force (w : Writing) {files : List ByteArray} (htwo : 2 ≤ files.length)
    {docs : List Document} (hread : files.mapM Document.ofBytes? = .ok docs) :
    mergeFiles w files =
      ((merge w.zlib docs).bind fun d => (w.save d).mapError .unwritable) ∧
    ((∃ d, merge w.zlib docs = .ok d) ↔
      (∃ d ∈ docs, d.HasType "Catalog") ∧ ∃ d ∈ docs, d.HasType "Pages") ∧
    ∀ d, merge w.zlib docs = .ok d → w.Preserves d → ∃ bytes m root inputs,
      mergeFiles w files = .ok bytes ∧ Document.ofBytes? bytes = .ok m ∧
      inputs.map Input.toSeat = seats 1 docs ∧ m.Binds w.zlib root inputs ∧
      ∀ input ∈ inputs, input.source.Intact input.first → ∀ r ∈ input.source.pages,
        ∃ page e, input.source.dict? r = some page ∧ m.dict? (input.place r) = some e ∧
          (input.source.Within depthLimit page → ∀ name ∈ inheritable,
            input.source.Secure input.first [name] r →
              input.KeepsInForce w.zlib m (inputs.flatMap Input.pages) page e name) := by
  have hordered := ordered_of_read hread
  refine ⟨mergeFiles_of_merge w htwo hread, ⟨?_, ?_⟩, ?_⟩
  · rintro ⟨d, hd⟩
    obtain ⟨g, rfl, -⟩ := merge_eq_ok hordered hd
    exact ⟨Gathering.exists_hasType g.catalog_first, Gathering.exists_hasType g.root_first⟩
  · rintro ⟨hcatalog, hnode⟩
    obtain ⟨g, rfl⟩ := exists_gathering hordered hcatalog hnode
    exact ⟨_, g.merge_eq w.zlib⟩
  · intro d hd hp
    obtain ⟨bytes, m, hfile, hm, hholds⟩ := hp.exists_file htwo hread hd
    obtain ⟨g, rfl, rfl⟩ := merge_eq_ok hordered hd
    refine ⟨bytes, m, _, g.inputs, hfile, hm, g.map_toSeat_inputs, g.binds hholds,
      fun input hinput hi r hr => ?_⟩
    obtain ⟨seat, hseat, rfl⟩ := List.mem_map.1 hinput
    obtain ⟨page, e, hdict, hfind, -⟩ := Gathering.entries_merged hholds hseat hi hr
    have hdict' := Document.dict?_of_find? hfind
    refine ⟨page, e, hdict, hdict', fun hwithin name hname hsecure => ?_⟩
    rw [Gathering.flatMap_pages_inputs]
    exact Gathering.keepsInForce hholds hseat hi hr hdict hdict' hwithin hname hsecure

/-- A node of the page tree that is above itself, with a size. -/
def circularNode : Dict :=
  [("Type", .name "Pages"), ("Parent", .ref ⟨2, 0⟩), ("Kids", .array [.ref ⟨3, 0⟩]),
    ("MediaBox", .ref ⟨4, 0⟩)]

/-- A page with nothing of its own. -/
def barePage : Dict :=
  [("Type", .name "Page"), ("Parent", .ref ⟨2, 0⟩)]

/-- A document whose page has its size from the node. -/
def circular : Document where
  version := "1.4"
  trailer := [("Root", .ref ⟨1, 0⟩), ("Size", .int 5)]
  objects := [
    (⟨1, 0⟩, .dict [("Type", .name "Catalog"), ("Pages", .ref ⟨2, 0⟩)]),
    (⟨2, 0⟩, .dict circularNode),
    (⟨3, 0⟩, .dict barePage),
    (⟨4, 0⟩, .array [.int 9])]

/-- The document in a file. -/
def circularFile : ByteArray :=
  ("%PDF-1.4\n" ++
    "1 0 obj<</Type/Catalog/Pages 2 0 R>>endobj\n" ++
    "2 0 obj<</Type/Pages/Parent 2 0 R/Kids[3 0 R]/MediaBox 4 0 R>>endobj\n" ++
    "3 0 obj<</Type/Page/Parent 2 0 R>>endobj\n" ++
    "4 0 obj[9]endobj\n" ++
    "xref\n0 5\n0000000000 65535 f \n0000000009 00000 n \n0000000052 00000 n \n" ++
    "0000000121 00000 n \n0000000162 00000 n \n" ++
    "trailer<</Root 1 0 R/Size 5>>\nstartxref\n179\n%%EOF\n").toUTF8

theorem read_circularFile : Document.ofBytes? circularFile = .ok circular := by
  decide +kernel

theorem read_circularFiles :
    [circularFile, shortFile].mapM Document.ofBytes? = .ok [circular, shortDocument] := by
  rw [List.mapM_cons, List.mapM_cons, List.mapM_nil, read_circularFile, read_shortFile]
  rfl

theorem pages_circular : circular.pages = [⟨3, 0⟩] := by cbv

theorem closed_circular : circular.Closed := by decide

/-- The document and another one, merged. -/
def circularMerged : Document where
  version := "1.5"
  trailer := [("Root", .ref ⟨1, 0⟩)]
  objects := [
    (⟨1, 0⟩, .dict [("Type", .name "Catalog"), ("Pages", .ref ⟨2, 0⟩)]),
    (⟨2, 0⟩, .dict [("Type", .name "Pages"), ("Kids", .array [.ref ⟨3, 0⟩, .ref ⟨5, 0⟩]),
      ("Count", .int 2)]),
    (⟨3, 0⟩, .dict (barePage ++ [("MediaBox", .ref ⟨4, 0⟩)])),
    (⟨4, 0⟩, .array [.int 9]),
    (⟨5, 0⟩, .dict (barePage ++ [("Contents", .ref ⟨6, 0⟩)])),
    (⟨6, 0⟩, .string "text" false)]

theorem merge_circular :
    merge Writing.plain.zlib [circular, shortDocument] = .ok circularMerged := by cbv

theorem preserves_circularMerged : Writing.plain.Preserves circularMerged := by
  have hplain : ∀ e ∈ circularMerged.objects, isStructural e.2 = false := by decide
  have hwritable : circularMerged.Writable := by decide +kernel
  exact hwritable.preserves fun r o _ h => hplain _ (Objects.mem_of_find? h)

/-- There is one node above the page, however often it is above itself. -/
theorem within_circular : circular.Within depthLimit barePage := by
  refine ⟨[circularNode], by decide, fun node h => List.mem_singleton.2 ?_⟩
  have hnode : ∀ e : Dict, e.parent? = some ⟨2, 0⟩ → circular.node? e = some circularNode :=
    fun e he => by rw [Document.node?, he, Option.bind_some, Document.dict?_of_find? rfl]
  induction h with
  | next h => exact Option.some.inj (h.symm.trans (hnode _ rfl))
  | step _ hnext ih =>
    subst ih
    exact Option.some.inj (hnext.symm.trans (hnode _ rfl))

/-- The page has its size in the merged document, and is not turned. -/
theorem sample_attributes_stay : ∃ (bytes : ByteArray) (m : Document) (a b : Input) (e : Dict),
    mergeFiles .plain [circularFile, shortFile] = .ok bytes ∧ Document.ofBytes? bytes = .ok m ∧
    a.toSeat = ⟨1, circular⟩ ∧ b.toSeat = ⟨5, shortDocument⟩ ∧
    m.dict? (a.place ⟨3, 0⟩) = some e ∧
    m.InForce "MediaBox" e (.ref (a.place ⟨4, 0⟩)) ∧ (∀ v, ¬m.InForce "Rotate" e v) ∧
    m.shown (a.pages ++ b.pages) (a.place ⟨4, 0⟩) = some (.array [.int 9]) := by
  have htwo : 2 ≤ [circularFile, shortFile].length := by decide
  obtain ⟨-, -, hkeeps⟩ := attributes_stay_in_force .plain htwo read_circularFiles
  obtain ⟨bytes, m, root, inputs, hbytes, hm, hseats, -, hkeeps⟩ :=
    hkeeps _ merge_circular preserves_circularMerged
  obtain ⟨a, rest, rfl, ha, hrest⟩ := List.map_eq_cons_iff.1 hseats
  obtain ⟨b, rest, rfl, hb, hrest⟩ := List.map_eq_cons_iff.1 hrest
  obtain rfl := List.map_eq_nil_iff.1 hrest
  have hsource : a.source = circular := congrArg Seat.source ha
  obtain ⟨page, e, hpage, he, hkeeps⟩ := hkeeps a List.mem_cons_self
    (hsource ▸ closed_circular.intact _) ⟨3, 0⟩ (by simp [hsource, pages_circular])
  rw [hsource] at hpage hkeeps
  obtain rfl : barePage = page :=
    Option.some.inj ((Document.dict?_of_find? rfl).symm.trans hpage)
  have hkeeps := fun name hname =>
    hkeeps within_circular name hname (closed_circular.secure _ _ _)
  have hsize : circular.InForce "MediaBox" barePage (.ref ⟨4, 0⟩) :=
    Document.inForce_of_parent rfl rfl rfl rfl
  have hbox := hkeeps "MediaBox" (by decide)
  refine ⟨bytes, m, a, b, e, hbytes, hm, ha, hb, he,
    (hbox.inForce _).2 ⟨_, hsource ▸ hsize, rfl⟩, fun v hv => ?_, ?_⟩
  · obtain ⟨v', hv', -⟩ := ((hkeeps "Rotate" (by decide)).inForce v).1 hv
    rw [hsource, ← Document.attribute?_eq_some_iff (by decide) within_circular] at hv'
    have hnone : circular.attribute? barePage "Rotate" = none := by cbv
    cases hnone.symm.trans hv'
  · have hstays : circular.Stays a.first ⟨4, 0⟩ :=
      closed_circular.stays (Or.inr ⟨_, rfl, by simp [Object.typeName?, Object.dict?]⟩) _
    have hshown := hbox.follows _ (hsource ▸ hsize) ⟨4, 0⟩
      (hsource ▸ .here (mem_refs_ref _) hstays)
    have hbox : circular.packed Archive.zlib ⟨4, 0⟩ = some (.array [.int 9]) := by
      rw [Document.packed, Document.shown, pages_circular]
      rfl
    change m.shown _ _ = (a.source.packed Archive.zlib _).map _ at hshown
    rw [hsource, hbox] at hshown
    simpa [Object.rename, renameItems] using hshown

/-! ## What is lost -/

/-- A document whose node lends an outline. -/
def lending : Document where
  version := "1.4"
  trailer := [("Root", .ref ⟨1, 0⟩)]
  objects := [
    (⟨1, 0⟩, .dict [("Type", .name "Catalog"), ("Pages", .ref ⟨2, 0⟩)]),
    (⟨2, 0⟩, .dict [("Type", .name "Pages"), ("Kids", .array [.ref ⟨3, 0⟩]),
      ("Resources", .ref ⟨4, 0⟩)]),
    (⟨3, 0⟩, .dict barePage),
    (⟨4, 0⟩, .dict [("Type", .name "Outline")])]

/-- The resources in force on a page are lost when they are of the type `Outline`. -/
theorem outline_resources_are_lost :
    (∃ page, lending.dict? ⟨3, 0⟩ = some page ∧ lending.InForce "Resources" page (.ref ⟨4, 0⟩)) ∧
    lending.find? ⟨4, 0⟩ = some (.dict [("Type", .name "Outline")]) ∧
    lending.views 2 = [.dict [("Type", .name "Page"),
      ("Resources", .dict [("Type", .name "Outline")])]] ∧
    (merge Archive.zlib [onePage [] [], lending]).map (Document.views 2) = .ok
      [.dict [("Type", .name "Page")], .dict [("Type", .name "Page"), ("Resources", .null)]] :=
  ⟨⟨barePage, Document.dict?_of_find? rfl, Document.inForce_of_parent rfl rfl rfl rfl⟩, rfl,
    by cbv, by cbv⟩

end Waybill.Pdf
