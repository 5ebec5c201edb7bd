/-
  The names of spreadsheets.

  A spreadsheet is named by its pack, the type and the number of its document, and the number of
  the label among several.  All of these are put together with dashes, and a type may have dashes
  of its own.

  * `title` is what a name has of the document, within its pack;
  * `Mimics`: the title of a document is the name of a label of another one.

  * `Bundled` and `Written`: what becomes of spreadsheets with names of their own.

  Statements: `eq_of_dashed` (a name is told apart at its last dash), `Prints.suffixes` (the labels
  of a document are counted from one), `nodup_stems_iff` (the names of jobs are distinct unless a
  document mimics a label), `rendered_apart_unless_mimicked`.
-/
import Waybill.Proofs.Catalog.Numbers
import Waybill.Proofs.Delivery.Path
import Waybill.Proofs.Files.Tree
import Waybill.Proofs.Generation.Fallback

namespace Waybill.Generation

open Waybill.Files Waybill.Store

/-! ## Numbers in names -/

theorem toString_of_nonneg {n : Int} (h : 0 ≤ n) : toString n = n.toNat.repr := by
  change n.repr = _
  rw [Int.repr_eq_if, if_pos h]

theorem not_mem_toString {n : Int} (h : 0 ≤ n) {c : Char} (hc : c.isDigit = false) :
    c ∉ (toString n).toList := by
  rw [toString_of_nonneg h, Nat.toList_repr]
  intro hmem
  cases hc.symm.trans (Nat.isDigit_of_mem_toDigits (by decide) (by decide) hmem)

/-- A name is told apart at its last dash, before a number. -/
theorem eq_of_dashed {x y : String} {m n : Int} (hm : 0 ≤ m) (hn : 0 ≤ n)
    (h : x ++ "-" ++ toString m = y ++ "-" ++ toString n) : x = y ∧ m = n := by
  have h : x.toList ++ '-' :: (toString m).toList = y.toList ++ '-' :: (toString n).toList := by
    simpa using congrArg String.toList h
  obtain ⟨hxy, hmn⟩ := Delivery.eq_of_append_cons_last (not_mem_toString hm (by decide))
    (not_mem_toString hn (by decide)) h
  refine ⟨String.toList_injective hxy, ?_⟩
  have hmn := String.toList_injective hmn
  rw [toString_of_nonneg hm, toString_of_nonneg hn, Nat.repr_inj] at hmn
  omega

/-! ## Titles -/

/-- The name of a document within its pack. -/
def title (d : Document) : String := d.type ++ "-" ++ toString d.id

theorem stem_eq (j : Job) :
    j.stem = j.document.packCode ++ "-" ++ (title j.document ++ j.suffix) := by
  simp [Job.stem, title, String.intercalate_cons_cons, String.append_assoc]

/-! ## Labels -/

section
variable {provider : Payload.Provider} {request : Request} {p : Plan} {d e : Document}
  {js ks : List Job}

/-- The labels of a document are counted from one, unless there is only one. -/
theorem Prints.suffixes (h : Prints provider request p d js) :
    js.map (·.suffix) = (List.range js.length).map (suffixAt js.length) := by
  cases h with
  | @labels codes js lists each =>
    have hlength : js.length = codes.length := by simpa using each.length_eq.symm
    have hsuffixes : codes.zipIdx.map (suffixAt codes.length ·.2) = js.map (·.suffix) := by
      rw [← List.forall₂_eq_eq_eq, List.forall₂_map_left_iff, List.forall₂_map_right_iff]
      exact each.imp fun _ _ ⟨_, _, job⟩ => job.suffix.symm
    rw [hlength, ← hsuffixes, List.range_eq_range', ← List.zipIdx_map_snd, List.map_map]
    rfl
  | single lists job => simp [job.suffix, suffixAt]

theorem suffixAt_injective {count m n : Nat} (hm : m < count) (hn : n < count)
    (h : suffixAt count m = suffixAt count n) : m = n := by
  unfold suffixAt at h
  split at h
  · omega
  · have h := (eq_of_dashed (x := "") (y := "") (m := (m + 1 : Nat)) (n := (n + 1 : Nat))
      (by omega) (by omega) (by simpa using h)).2
    omega

theorem Prints.nodup_suffixes (h : Prints provider request p d js) :
    (js.map (·.suffix)).Nodup := by
  rw [h.suffixes]
  refine List.Nodup.map_on ?_ List.nodup_range
  intro m hm n hn
  exact suffixAt_injective (List.mem_range.1 hm) (List.mem_range.1 hn)

/-- The title of a document is the name of a label of another one: its type is the title of a
    document with several labels, and its number that of one of them. -/
structure Mimics (provider : Payload.Provider) (request : Request) (d e : Document) : Prop where
  lists : ∃ codes, Lists provider request d codes ∧ 2 ≤ codes.length ∧ e.id.toNat ≤ codes.length
  type : e.type = title d

theorem Prints.length_eq (h : Prints provider request p d js) {codes : List String}
    (lists : Lists provider request d codes) : js.length = codes.length := by
  cases h with
  | labels lists' each =>
    rw [lists.eq lists']
    simpa using each.length_eq.symm
  | single lists' => exact (lists' codes lists).elim

/-- Several jobs of a document are its labels. -/
theorem Prints.lists_of_several (h : Prints provider request p d js) (hjs : 2 ≤ js.length) :
    ∃ codes, Lists provider request d codes ∧ codes.length = js.length := by
  cases h with
  | labels lists each => exact ⟨_, lists, by simpa using each.length_eq⟩
  | single => simp at hjs

/-- A job has no suffix, or it is one of several labels. -/
theorem Prints.suffix_cases (h : Prints provider request p d js) {j : Job} (hj : j ∈ js) :
    j.suffix = "" ∨ ∃ codes, ∃ n : Nat, Lists provider request d codes ∧ 2 ≤ codes.length ∧
      n < codes.length ∧ j.suffix = "-" ++ toString (n + 1 : Int) := by
  have hmem : j.suffix ∈ (List.range js.length).map (suffixAt js.length) :=
    h.suffixes ▸ List.mem_map_of_mem hj
  obtain ⟨n, hn, hsuffix⟩ := List.mem_map.1 hmem
  rw [List.mem_range] at hn
  unfold suffixAt at hsuffix
  split at hsuffix
  · exact Or.inl hsuffix.symm
  · obtain ⟨codes, lists, hlength⟩ := h.lists_of_several (by omega)
    exact Or.inr ⟨codes, n, lists, by omega, by omega, hsuffix.symm⟩

/-- Each of several labels is printed. -/
theorem Prints.exists_label (h : Prints provider request p d js) {codes : List String}
    (lists : Lists provider request d codes) (hcodes : 2 ≤ codes.length) {n : Nat}
    (hn : n < codes.length) : ∃ j ∈ js, j.suffix = "-" ++ toString (n + 1 : Int) := by
  have hlength := h.length_eq lists
  have hmem : suffixAt js.length n ∈ js.map (·.suffix) := by
    rw [h.suffixes]
    exact List.mem_map_of_mem (List.mem_range.2 (by omega))
  obtain ⟨j, hj, hsuffix⟩ := List.mem_map.1 hmem
  refine ⟨j, hj, hsuffix.trans ?_⟩
  rw [suffixAt, if_neg (by omega)]
  rfl

/-- A document that mimics a label is no label itself. -/
theorem Mimics.not_lists (h : Mimics provider request d e) (codes : List String) :
    ¬ Lists provider request e codes := by
  intro lists
  obtain ⟨_, lists', -⟩ := h.lists
  have htype : destinationLabel = destinationLabel ++ "-" ++ toString d.id := by
    rw [← lists'.type, ← title, ← h.type, lists.type, lists'.type]
  have hlength := congrArg String.length htype
  simp only [String.length_append, show "-".length = 1 from rfl] at hlength
  omega

theorem Mimics.suffix_eq (hd : Mimics provider request d e) (h : Prints provider request p e js)
    {j : Job} (hj : j ∈ js) : j.suffix = "" := by
  rcases h.suffix_cases hj with h | ⟨codes, n, lists, -⟩
  · exact h
  · exact (hd.not_lists codes lists).elim

/-- Jobs of one name are one job of one document, or one of the documents mimics a label of the
    other one. -/
theorem cases_of_stem_eq (hd : Prints provider request p d js) (he : Prints provider request p e ks)
    (hdid : 0 < d.id) (heid : 0 < e.id) (hcode : d.packCode = e.packCode) {j k : Job} (hj : j ∈ js)
    (hk : k ∈ ks) (h : j.stem = k.stem) :
    (d.id = e.id ∧ j.suffix = k.suffix) ∨ Mimics provider request d e ∨
      Mimics provider request e d := by
  rw [stem_eq, stem_eq, hd.document hj, he.document hk, hcode, String.append_right_inj] at h
  rcases hd.suffix_cases hj with hjs | ⟨codes, m, lists, hcodes, hm, hjs⟩ <;>
    rcases he.suffix_cases hk with hks | ⟨codes', n, lists', hcodes', hn, hks⟩ <;>
    simp only [hjs, hks, title, String.append_empty, ← String.append_assoc] at h
  · obtain ⟨-, hid⟩ := eq_of_dashed (Int.le_of_lt hdid) (Int.le_of_lt heid) h
    exact Or.inl ⟨hid, hjs.trans hks.symm⟩
  · obtain ⟨htype, hid⟩ := eq_of_dashed (Int.le_of_lt hdid) (by omega) h
    exact Or.inr (Or.inr ⟨⟨codes', lists', hcodes', by omega⟩, htype⟩)
  · obtain ⟨htype, hid⟩ := eq_of_dashed (by omega) (Int.le_of_lt heid) h
    exact Or.inr (Or.inl ⟨⟨codes, lists, hcodes, by omega⟩, htype.symm⟩)
  · obtain ⟨htitle, hmn⟩ := eq_of_dashed (by omega) (by omega) h
    obtain ⟨-, hid⟩ := eq_of_dashed (Int.le_of_lt hdid) (Int.le_of_lt heid) htitle
    obtain rfl : m = n := by omega
    exact Or.inl ⟨hid, hjs.trans hks.symm⟩

/-- A document that mimics a label of another one has a job of the same name. -/
theorem Mimics.exists_stem_eq (h : Mimics provider request d e)
    (hd : Prints provider request p d js) (he : Prints provider request p e ks) (heid : 0 < e.id)
    (hcode : d.packCode = e.packCode) : ∃ j ∈ js, ∃ k ∈ ks, j.stem = k.stem := by
  obtain ⟨codes, lists, hcodes, hid⟩ := h.lists
  obtain ⟨n, hn⟩ := Int.eq_succ_of_zero_lt heid
  rw [hn] at hid
  obtain ⟨j, hj, hsuffix⟩ := hd.exists_label lists hcodes (n := n) (by omega)
  obtain ⟨k, hk⟩ := List.exists_mem_of_ne_nil ks he.ne_nil
  refine ⟨j, hj, k, hk, ?_⟩
  rw [stem_eq, stem_eq, hd.document hj, he.document hk, hcode, hsuffix, h.suffix_eq he hk,
    String.append_right_inj, String.append_empty]
  change title d ++ _ = e.type ++ "-" ++ toString e.id
  rw [h.type, hn, String.append_assoc]

end

/-! ## The jobs of a plan -/

/-- The documents of a plan have numbers of their own, and the code of one pack. -/
theorem Planned.apart {request : Request} {s : Store} {pack : Id} {ds : List Document}
    (h : Planned request s pack ds) : ds.Pairwise fun d e => d.id ≠ e.id := by
  refine h.ordered.imp_of_mem fun {d e} hd he horder hid => ?_
  have hd := (h.mem d).1 hd
  have he := (h.mem e).1 he
  obtain rfl : d = e := Option.some.inj (hd.1.symm.trans (hid ▸ he.1))
  simp at horder

theorem packCode_eq {s : Store} {d e : Document} (hd : s.document? d.id = some d)
    (he : s.document? e.id = some e) (h : d.pack = e.pack) : d.packCode = e.packCode := by
  obtain ⟨row, -, hrow⟩ := Option.bind_eq_some_iff.1 hd
  obtain ⟨row', -, hrow'⟩ := Option.bind_eq_some_iff.1 he
  obtain ⟨p, hp, rfl⟩ := Option.map_eq_some_iff.1 hrow
  obtain ⟨p', hp', rfl⟩ := Option.map_eq_some_iff.1 hrow'
  dsimp only at h
  rw [h, hp'] at hp
  exact congrArg PackRow.code (Option.some.inj hp).symm

theorem id_pos {s : Store} (h : s.documents.Positive DocumentRow.id) {d : Document}
    (hd : s.document? d.id = some d) : 0 < d.id := by
  obtain ⟨row, hrow, hread⟩ := Option.bind_eq_some_iff.1 hd
  rw [(row_of_readDocument? hread).1]
  exact h.rows row (List.mem_of_find?_eq_some hrow)

/-- Jobs are told apart by the numbers of their documents and by their suffixes. -/
theorem pairwise_jobs {provider : Payload.Provider} {request : Request} {p : Plan}
    {ds : List Document} {jss : List (List Job)} (hds : ds.Pairwise fun d e => d.id ≠ e.id)
    (h : List.Forall₂ (Prints provider request p) ds jss) :
    jss.flatten.Pairwise fun j k => ¬ (j.document.id = k.document.id ∧ j.suffix = k.suffix) := by
  induction h with
  | nil => exact .nil
  | @cons d js ds jss hd hrest ih =>
    obtain ⟨hne, hds⟩ := List.pairwise_cons.1 hds
    refine List.pairwise_append.2 ⟨?_, ih hds, fun j hj k hk hjk => ?_⟩
    · exact (List.pairwise_map.1 hd.nodup_suffixes).imp fun hne hjk => hne hjk.2
    · refine hne k.document ((exists_jobs hrest).2 k hk) ?_
      rw [← hjk.1, hd.document hj]

/-- **The names of jobs are distinct, unless a document mimics a label.** -/
theorem nodup_stems_iff {setting : Setting} {request : Request} {s : Store} (hs : s.Sound)
    (hpositive : s.documents.Positive DocumentRow.id) {p : Plan} {js : List Job}
    (h : planned setting request s = .ok (p, js)) :
    (js.map (·.stem)).Nodup ↔
      ∀ d ∈ p.documents, ∀ e ∈ p.documents, ¬ Mimics setting.provider request d e := by
  obtain ⟨hplanned, jss, hjss, rfl⟩ := prints_of_planned hs h
  have hids : ∀ d ∈ p.documents, 0 < d.id := fun d hd => id_pos hpositive ((hplanned.mem d).1 hd).1
  have hcodes : ∀ d ∈ p.documents, ∀ e ∈ p.documents, d.packCode = e.packCode := by
    intro d hd e he
    have hd := (hplanned.mem d).1 hd
    have he := (hplanned.mem e).1 he
    exact packCode_eq hd.1 he.1 (hd.2.1.trans he.2.1.symm)
  obtain ⟨hjobs, hdocuments⟩ := exists_document hjss
  constructor
  · intro hnodup d hd e he hmimics
    obtain ⟨js, hjs, hdprints⟩ := hjobs d hd
    obtain ⟨ks, hks, heprints⟩ := hjobs e he
    obtain ⟨j, hj, k, hk, hstem⟩ :=
      hmimics.exists_stem_eq hdprints heprints (hids e he) (hcodes d hd e he)
    obtain rfl := List.inj_on_of_nodup_map hnodup (List.mem_flatten_of_mem hjs hj)
      (List.mem_flatten_of_mem hks hk) hstem
    -- one job would be a label of both documents, but only one of them is a label
    obtain ⟨codes, lists, -⟩ := hmimics.lists
    obtain rfl : d = e := (hdprints.document hj).symm.trans (heprints.document hk)
    exact hmimics.not_lists codes lists
  · intro hmimics
    refine List.pairwise_map.2 ((pairwise_jobs hplanned.apart hjss).imp_of_mem ?_)
    intro j k hj hk hne hstem
    obtain ⟨js, hjs, hj⟩ := List.mem_flatten.1 hj
    obtain ⟨ks, hks, hk⟩ := List.mem_flatten.1 hk
    obtain ⟨d, hd, hdprints⟩ := hdocuments js hjs
    obtain ⟨e, he, heprints⟩ := hdocuments ks hks
    rcases cases_of_stem_eq hdprints heprints (hids d hd) (hids e he) (hcodes d hd e he) hj hk
      hstem with h | h | h
    · rw [hdprints.document hj, heprints.document hk] at hne
      exact hne h
    · exact hmimics d hd e he h
    · exact hmimics e he d hd h

/-! ## Bundles and directories -/

/-- The spreadsheets go into one bundle, and none is left out: a single one is the bundle, and
    several are the files of an archive, which are read back if they fit. -/
def Bundled (code : String) (now : Calendar.Instant) (rs : List Rendered) : Prop :=
  ∃ b, bundle Archive.zip code now rs = .ok b ∧
    ((∃ r, rs = [r] ∧ b.name = r.name ∧ b.bytes = r.bytes) ∨
      (b.bytes = ⟨(Archive.pack (rs.map Rendered.entry)).toArray⟩ ∧
        (Archive.Fits (rs.map Rendered.entry) →
          Archive.unzip b.bytes = some (rs.map Rendered.entry))))

/-- The spreadsheets can be written into a directory one by one, and each is there afterwards.
    There must be no directories of their names. -/
def Written (t : Tree) (directory : String) (rs : List Rendered) : Prop :=
  ∀ place, t.place? directory = some place → t.isDir place = true →
    (∀ r ∈ rs, t.isDir (place ++ [r.name]) = false) →
    ∃ t', t.writeAll directory (rs.map fun r => (r.name, r.bytes)) = some t' ∧
      (∀ r ∈ rs, t'.node? (place ++ [r.name]) = some (some r.bytes)) ∧
      ∀ q, (∀ r ∈ rs, q ≠ place ++ [r.name]) → t'.node? q = t.node? q

theorem entry_names (rs : List Rendered) :
    (rs.map Rendered.entry).map (·.name) = rs.map (·.name) := by
  rw [List.map_map]
  rfl

theorem bundled_of_nodup {code : String} {now : Calendar.Instant} {rs : List Rendered}
    (hrs : rs ≠ []) (hnames : (rs.map (·.name)).Nodup)
    (hshort : ∀ r ∈ rs, r.name.utf8ByteSize ≤ Archive.maxNameSize) : Bundled code now rs := by
  have hzip : Archive.zip (rs.map Rendered.entry) = .ok _ := Archive.zip_eq_ok.2
    ⟨entry_names rs ▸ hnames, List.forall_mem_map.2 hshort, rfl⟩
  match rs, hrs with
  | [r], _ => exact ⟨_, rfl, Or.inl ⟨r, rfl, rfl, rfl⟩⟩
  | r :: r' :: rest, _ =>
    have hbundle : bundle Archive.zip code now (r :: r' :: rest) = _ :=
      bundle_of_several _ _ _ (by simp)
    rw [hzip] at hbundle
    exact ⟨_, hbundle, Or.inr ⟨rfl, fun hfits => Archive.unzip_zip hfits hzip⟩⟩

theorem bundle_eq_error {code : String} {now : Calendar.Instant} {rs : List Rendered}
    (hnames : ¬ (rs.map (·.name)).Nodup) :
    ∃ detail, bundle Archive.zip code now rs = .error (.bundle detail) := by
  match rs with
  | [] => exact (hnames .nil).elim
  | [r] => simp at hnames
  | r :: r' :: rest =>
    rw [bundle_of_several _ _ _ (by simp)]
    cases hzip : Archive.zip ((r :: r' :: rest).map Rendered.entry) with
    | error detail => exact ⟨detail, rfl⟩
    | ok bytes => exact (hnames (entry_names _ ▸ (Archive.zip_eq_ok.1 hzip).1)).elim

theorem plain_of_slash_not_mem {stem : String} (h : '/' ∉ stem.toList) :
    Plain (stem ++ ".xlsx") := by
  have hlength : 5 ≤ (stem ++ ".xlsx").length := by
    simp [String.length_append, show ".xlsx".length = 5 from rfl]
  have hne : ∀ name : String, name.length < 5 → stem ++ ".xlsx" ≠ name := by
    rintro name hname rfl
    omega
  exact {
    slash := by simpa using h
    counts := by simp [counts, hne "" (by decide), hne "." (by decide)]
    stays := hne ".." (by decide) }

theorem written_of_nodup {t : Tree} (ht : t.Rooted) (directory : String) {rs : List Rendered}
    (hplain : ∀ r ∈ rs, Plain r.name) (hnames : (rs.map (·.name)).Nodup) :
    Written t directory rs := by
  intro place hplace hdir hfree
  have hfiles : ∀ f ∈ rs.map fun r => (r.name, r.bytes),
      Plain f.1 ∧ t.isDir (place ++ [f.1]) = false := by
    simpa using fun r hr => ⟨hplain r hr, hfree r hr⟩
  have hdistinct : ((rs.map fun r => (r.name, r.bytes)).map (·.1)).Nodup := by
    simpa [Function.comp_def] using hnames
  obtain ⟨t', hwrite, hthere, hothers⟩ := Tree.writeAll_distinct ht hplace hdir hfiles hdistinct
  exact ⟨t', hwrite, by simpa using hthere, fun q hq => hothers q (by simpa using hq)⟩

/-- A name has a slash only from the code of the pack or the type of the document. -/
theorem slash_not_mem_stem {provider : Payload.Provider} {request : Request} {p : Plan}
    {d : Document} {js : List Job} (h : Prints provider request p d js) {j : Job} (hj : j ∈ js)
    (hid : 0 < d.id) (hcode : '/' ∉ d.packCode.toList) (htype : '/' ∉ d.type.toList) :
    '/' ∉ j.stem.toList := by
  have hsuffix : '/' ∉ j.suffix.toList := by
    rcases h.suffix_cases hj with hsuffix | ⟨-, n, -, -, -, hsuffix⟩
    · simp [hsuffix]
    · have hn := not_mem_toString (n := (n + 1 : Int)) (by omega) (c := '/') (by decide)
      simpa [hsuffix] using hn
  have hnumber := not_mem_toString (Int.le_of_lt hid) (c := '/') (by decide)
  rw [stem_eq, h.document hj, title]
  simpa [hcode, htype, hsuffix] using hnumber

/-- **The spreadsheets of a request have names of their own, unless a document mimics a label.**
    Then one bundle takes all of them, if no name is too long, and so does a directory, if no name
    leads elsewhere; otherwise they do not go into a bundle. -/
theorem rendered_apart_unless_mimicked (ops : List Operation) (around : Surroundings)
    (setting : Setting) (request : Request) {rs : List Rendered} {w' : World}
    (h : (renderPack setting request).on around (World.start.runAll ops) = (.ok rs, w')) :
    ∃ p, planOf setting request (World.start.runAll ops).store = .ok p ∧
      ((∀ d ∈ p.documents, ∀ e ∈ p.documents, ¬ Mimics setting.provider request d e) →
        (rs.map (·.name)).Nodup ∧
        (∀ code now, (∀ r ∈ rs, r.name.utf8ByteSize ≤ Archive.maxNameSize) → Bundled code now rs) ∧
        ∀ t : Tree, t.Rooted →
          (∀ d ∈ p.documents, '/' ∉ d.packCode.toList ∧ '/' ∉ d.type.toList) →
          ∀ directory, Written t directory rs) ∧
      ((∃ d ∈ p.documents, ∃ e ∈ p.documents, Mimics setting.provider request d e) →
        ¬ (rs.map (·.name)).Nodup ∧
        ∀ code now, ∃ detail, bundle Archive.zip code now rs = .error (.bundle detail)) := by
  have hs := (recorded_runAll ops).sound
  have hpositive := positive_runAll ops
  generalize World.start.runAll ops = w at h hs hpositive ⊢
  obtain ⟨p, js, hplanned, hrendering⟩ := rendering_of_renderPack h
  have hnames : (rs.map (·.name)).Nodup ↔ (js.map (·.stem)).Nodup := by
    have hinjective : Function.Injective fun stem : String => stem ++ ".xlsx" := fun a b h => by
      simpa using h
    rw [hrendering.names, ← List.nodup_map_iff hinjective (l := js.map (·.stem)), List.map_map]
    rfl
  rw [nodup_stems_iff hs hpositive hplanned] at hnames
  refine ⟨p, (planned_eq_ok.1 hplanned).1, fun hmimics => ?_, fun ⟨d, hd, e, he, hmimics⟩ => ?_⟩
  · have hdistinct := hnames.2 hmimics
    refine ⟨hdistinct, fun code now => bundled_of_nodup
      (hrendering.ne_nil (planned_jobs_ne_nil hplanned)) hdistinct, fun t ht hslash directory =>
      written_of_nodup ht directory (fun r hr => ?_) hdistinct⟩
    have hmem : r.name ∈ js.map fun j => j.stem ++ ".xlsx" :=
      hrendering.names ▸ List.mem_map_of_mem hr
    obtain ⟨j, hj, hname⟩ := List.mem_map.1 hmem
    obtain ⟨hdocuments, jss, hjss, rfl⟩ := prints_of_planned hs hplanned
    obtain ⟨ks, hks, hj⟩ := List.mem_flatten.1 hj
    obtain ⟨d, hd, hprints⟩ := (exists_document hjss).2 ks hks
    rw [← hname]
    exact plain_of_slash_not_mem (slash_not_mem_stem hprints hj
      (id_pos hpositive ((hdocuments.mem d).1 hd).1) (hslash d hd).1 (hslash d hd).2)
  · have hclash : ¬ (rs.map (·.name)).Nodup := fun hdistinct => hnames.1 hdistinct d hd e he hmimics
    exact ⟨hclash, fun code now => bundle_eq_error hclash⟩

/-- Two labels of one document have names of their own. -/
theorem sample_labels_apart : ∃ rs w', (renderPack servingSetting sampleRequest).on
    sampleSurroundings (World.start.runAll [labelImport]) = (.ok rs, w') ∧
    rs.length = 2 ∧ (rs.map (·.name)).Nodup := by
  have hrendered : ((renderPack servingSetting sampleRequest).on sampleSurroundings
      (World.start.runAll [labelImport])).1.map (·.length) = .ok 2 := by
    decide +kernel
  have hdocuments : (planOf servingSetting sampleRequest
      (World.start.runAll [labelImport]).store).map (·.documents.map fun d => (d.type, d.id)) =
        .ok [(destinationLabel, 1)] := by
    decide +kernel
  have hapart := @rendered_apart_unless_mimicked [labelImport] sampleSurroundings servingSetting
    sampleRequest
  generalize World.start.runAll [labelImport] = w at hrendered hdocuments hapart ⊢
  rcases hrun : (renderPack servingSetting sampleRequest).on sampleSurroundings w with
    ⟨e | rs, w'⟩
  · rw [hrun] at hrendered
    cases hrendered
  rw [hrun] at hrendered
  obtain ⟨p, hp, hnames, -⟩ := hapart hrun
  rw [hp] at hdocuments
  have hdocuments : (p.documents.map fun d => (d.type, d.id)) = _ := Except.ok.inj hdocuments
  refine ⟨rs, w', rfl, Except.ok.inj hrendered, (hnames fun d hd e he hmimics => ?_).1⟩
  have hall : ∀ d ∈ p.documents, d.type = destinationLabel ∧ d.id = 1 := fun d hd => by
    have hmem := List.mem_map_of_mem (f := fun d : Document => (d.type, d.id)) hd
    rw [hdocuments] at hmem
    simpa using hmem
  have htype := hmimics.type
  rw [title, (hall d hd).1, (hall d hd).2, (hall e he).1] at htype
  exact absurd htype (by decide)

/-- An import of a pack with a label of all cartons, and a document that mimics its labels. -/
def mimicImport : Operation :=
  .importing ⟨fun _ => .error "no such file", "", sampleSignature⟩
    ⟨[⟨"D", "", true, .a4, none, [⟨destinationLabel, allLabels, 1, true, none, []⟩,
      ⟨"destination_label-1", "shipment", 2, true, none, []⟩]⟩]⟩

/-- A setting for two labels where every file is a template without sheets. -/
def mimicSetting : Setting :=
  { sampleShipping with
    templateDirs := ["templates"]
    templateFile := fun _ => some (.ok "\x7b\"sheets\":[]\x7d".toUTF8) }

/-- What is printed of the pack. -/
def mimicPlan : Plan where
  pack := ⟨1, "D", "D", true, .a4, none⟩
  documents := [⟨1, 1, "D", destinationLabel, allLabels, 1, true, none⟩,
    ⟨2, 1, "D", "destination_label-1", "shipment", 2, true, none⟩]
  shipment := some .empty
  carton := none

/-- The jobs of the pack. -/
def mimicJobs : List Job :=
  [⟨⟨1, 1, "D", destinationLabel, allLabels, 1, true, none⟩, some (.ofText "C1"), "-1"⟩,
    ⟨⟨1, 1, "D", destinationLabel, allLabels, 1, true, none⟩, some (.ofText "C2"), "-2"⟩,
    ⟨⟨2, 1, "D", "destination_label-1", "shipment", 2, true, none⟩, none, ""⟩]

theorem planned_mimics : planned mimicSetting sampleRequest
    (World.start.runAll [mimicImport]).store = .ok (mimicPlan, mimicJobs) := by
  cbv

theorem rules_mimics : (World.start.runAll [mimicImport]).store.rules = Store.empty.rules := by
  cbv

/-- The second label of the first document and the second document have one name. -/
theorem mimicked_label_shares_its_name : ∃ rs w', (renderPack mimicSetting sampleRequest).on
    sampleSurroundings (World.start.runAll [mimicImport]) = (.ok rs, w') ∧
    rs.map (·.name) = ["D-destination_label-1-1.xlsx", "D-destination_label-1-2.xlsx",
      "D-destination_label-1-2.xlsx"] ∧ ¬ (rs.map (·.name)).Nodup := by
  have hsheets : (mimicJobs.mapM (sheet mimicSetting .empty mimicPlan .epoch)).map
      (·.map (·.name)) = .ok ["D-destination_label-1-1.xlsx", "D-destination_label-1-2.xlsx",
        "D-destination_label-1-2.xlsx"] := by
    decide +kernel
  have hplanned := planned_mimics
  have hrules := rules_mimics
  generalize World.start.runAll [mimicImport] = w at hplanned hrules ⊢
  have hrun : (renderPack mimicSetting sampleRequest).on sampleSurroundings w = _ :=
    on_planning sampleSurroundings w mimicSetting sampleRequest (renderJobs mimicSetting)
  have hday : ∀ past, sampleSurroundings.today past = .epoch := fun _ => rfl
  obtain ⟨w', hjobs, -⟩ := on_renderJobs hday mimicSetting mimicPlan mimicJobs w
  rw [hplanned] at hrun
  dsimp only at hrun
  rw [hjobs, sheet_of_rules hrules] at hrun
  cases hrs : mimicJobs.mapM (sheet mimicSetting .empty mimicPlan .epoch) with
  | error e =>
    rw [hrs] at hsheets
    cases hsheets
  | ok rs =>
    rw [hrs] at hrun hsheets
    have hnames : rs.map (·.name) = _ := Except.ok.inj hsheets
    refine ⟨rs, w', hrun, hnames, ?_⟩
    rw [hnames]
    decide

end Waybill.Generation
