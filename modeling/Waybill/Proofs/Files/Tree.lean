/-
  Files written into a directory.

  * `Plain` is a name that is a file's own, without a way to another place;
  * `Tree.Rooted`: absolute paths of the tree start with a proper root;
  * `Tree.writeAll` writes files into one directory, one after the other.

  Statements: `place?_joined` (a plain name seen from a directory is a place in it),
  `writeAll_distinct` (files of distinct names are all there afterwards).
-/
import Mathlib.Data.List.Nodup
import Waybill.Files.Tree
import Waybill.Proofs.Text.Split

namespace Waybill

namespace Files

open Text

/-! ## Pieces -/

theorem pieces_of_slash_not_mem {name : String} (h : '/' ∉ name.toList) : pieces name = [name] := by
  rw [pieces, splitOn_of_not_mem h, List.map_singleton, String.ofList_toList]

theorem pieces_append (path name : String) :
    pieces (path ++ "/" ++ name) = pieces path ++ pieces name := by
  have hsplit : (path ++ "/" ++ name).toList = path.toList ++ '/' :: name.toList := by simp
  rw [pieces, hsplit, splitOn_append_cons, List.map_append]
  rfl

theorem pieces_slash (path : String) : pieces (path ++ "/") = pieces path ++ [""] := by
  have h : pieces "" = [""] := rfl
  rw [← h, ← pieces_append, String.append_empty]

theorem pieces_file {path name : String} (h : '/' ∉ name.toList) :
    pieces (path ++ "/" ++ name) = pieces path ++ [name] := by
  rw [pieces_append, pieces_of_slash_not_mem h]

/-! ## Paths -/

/-- A name that is a file's own, without a way to another place. -/
structure Plain (name : String) : Prop where
  slash : '/' ∉ name.toList
  counts : counts name = true
  stays : name ≠ ".."

theorem isAbsolute_iff {path : String} : isAbsolute path = true ↔ ['/'] <+: path.toList :=
  String.startsWith_string_iff

theorem endsWith_iff {s ending : String} :
    s.endsWith ending = true ↔ ending.toList <:+ s.toList := by
  rw [String.endsWith_eq_endsWith_toSlice, String.Slice.endsWith_string_iff, String.copy_toSlice]

theorem isAbsolute_of_slash_not_mem {name : String} (h : '/' ∉ name.toList) :
    isAbsolute name = false := by
  rw [Bool.eq_false_iff, Ne, isAbsolute_iff]
  rintro ⟨rest, hrest⟩
  exact h (hrest ▸ List.mem_cons_self)

theorem isAbsolute_append {directory : String} (h : directory ≠ "") (path : String) :
    isAbsolute (directory ++ path) = isAbsolute directory := by
  rw [Bool.eq_iff_iff, isAbsolute_iff, isAbsolute_iff, String.toList_append]
  cases hd : directory.toList with
  | nil => exact absurd (String.toList_eq_nil_iff.1 hd) h
  | cons c cs => simp

/-- A name seen from a directory stands after one slash. -/
theorem joined_eq {directory name : String} (hdirectory : directory ≠ "")
    (hname : '/' ∉ name.toList) : ∃ d, (directory = d ∨ directory = d ++ "/") ∧
      joined directory name = d ++ "/" ++ name := by
  unfold joined
  rw [isAbsolute_of_slash_not_mem hname, if_neg (by simp),
    if_neg (by simpa [String.isEmpty_iff] using hdirectory)]
  split
  · next hslash =>
    obtain ⟨d, hd⟩ := endsWith_iff.1 hslash
    have hd : directory = String.ofList d ++ "/" :=
      String.toList_injective (by simpa using hd.symm)
    exact ⟨String.ofList d, Or.inr hd, by rw [← hd]⟩
  · exact ⟨directory, Or.inl rfl, rfl⟩

namespace Tree

variable {t : Tree} {directory name : String} {p : Place}

/-- Absolute paths of the tree start with a proper root. -/
structure Rooted (t : Tree) : Prop where
  absolute : isAbsolute t.root = true
  slash : t.root.endsWith "/" = false

/-- A path below the root, by the rest of it. -/
theorem names?_below (t : Tree) (rest : String) :
    t.names? (t.root ++ "/" ++ rest) = some (pieces rest) := by
  have hlist : (t.root ++ "/" ++ rest).toList = t.root.toList ++ '/' :: rest.toList := by simp
  have hne : ¬ (t.root ++ "/" ++ rest == t.root) = true := by
    rw [beq_iff_eq]
    intro h
    have hlength := congrArg String.length h
    simp only [String.length_append, show "/".length = 1 from rfl] at hlength
    omega
  have hstart : (t.root ++ "/" ++ rest).startsWith (t.root ++ "/") = true := by
    rw [String.startsWith_string_iff, hlist]
    exact ⟨rest.toList, by simp⟩
  have hempty : ¬ (t.root ++ "/" ++ rest).isEmpty = true := by
    rw [String.isEmpty_iff]
    intro h
    have hlength := congrArg String.length h
    simp at hlength
  rw [names?, if_neg hempty, if_neg hne, if_pos hstart, hlist]
  congr 2
  rw [← String.length_toList, ← List.drop_drop]
  simp

theorem names?_cases {path : String} {names : List String} (h : t.names? path = some names) :
    (path = t.root ∧ names = []) ∨ (∃ rest, path = t.root ++ "/" ++ rest ∧ names = pieces rest) ∨
      (isAbsolute path = false ∧ path ≠ "" ∧ names = pieces path) := by
  by_cases hstart : path.startsWith (t.root ++ "/") = true
  · obtain ⟨rest, hrest⟩ := String.startsWith_string_iff.1 hstart
    have hpath : path = t.root ++ "/" ++ String.ofList rest :=
      String.toList_injective (by simpa using hrest.symm)
    rw [hpath, names?_below] at h
    exact Or.inr (Or.inl ⟨_, hpath, (Option.some.inj h).symm⟩)
  · unfold names? at h
    split at h
    · cases h
    · next hempty =>
      split at h
      · next hroot =>
        cases h
        exact Or.inl ⟨beq_iff_eq.1 hroot, rfl⟩
      · split at h
        · cases h
        · next habsolute =>
          cases h
          exact Or.inr (Or.inr ⟨by simpa using habsolute,
            fun h => hempty (String.isEmpty_iff.2 h), rfl⟩)

theorem names?_of_relative (ht : t.Rooted) {path : String} (h : isAbsolute path = false)
    (hpath : path ≠ "") : t.names? path = some (pieces path) := by
  have hroot : ¬ (path == t.root) = true := by
    rw [beq_iff_eq]
    rintro rfl
    cases h.symm.trans ht.absolute
  have hstart : ¬ path.startsWith (t.root ++ "/") = true := by
    rw [String.startsWith_string_iff, String.toList_append]
    intro hprefix
    have habsolute := isAbsolute_iff.2
      ((isAbsolute_iff.1 ht.absolute).trans ((List.prefix_append _ _).trans hprefix))
    cases h.symm.trans habsolute
  rw [names?, if_neg (by simpa [String.isEmpty_iff] using hpath), if_neg hroot, if_neg hstart,
    if_neg (by simp [h])]

/-- A path below the root that ends with a slash. -/
theorem rest_cases {root rest d : String} (h : root ++ "/" ++ rest = d ++ "/") :
    (rest = "" ∧ d = root) ∨ ∃ r, rest = r ++ "/" ∧ d = root ++ "/" ++ r := by
  have h : root.toList ++ '/' :: rest.toList = d.toList ++ ['/'] := by
    simpa using congrArg String.toList h
  rcases List.eq_nil_or_concat rest.toList with hrest | ⟨r, c, hrest⟩
  · rw [hrest, List.append_cancel_right_eq, String.toList_inj] at h
    exact Or.inl ⟨String.toList_eq_nil_iff.1 hrest, h.symm⟩
  · rw [hrest, List.concat_eq_append, ← List.cons_append, ← List.append_assoc] at h
    obtain ⟨hd, hc⟩ := List.append_inj' h rfl
    obtain rfl : c = '/' := List.singleton_inj.1 hc
    refine Or.inr ⟨String.ofList r, String.toList_injective ?_, String.toList_injective ?_⟩
    · simpa using hrest
    · simpa using hd.symm

/-- The names on the way to a file below the root. -/
theorem names?_file (t : Tree) (rest : String) (hname : '/' ∉ name.toList) :
    t.names? (t.root ++ "/" ++ rest ++ "/" ++ name) = some (pieces rest ++ [name]) := by
  have hpath : t.root ++ "/" ++ rest ++ "/" ++ name = t.root ++ "/" ++ (rest ++ "/" ++ name) := by
    simp only [String.append_assoc]
  rw [hpath, names?_below, pieces_file hname]

/-- The names on the way to a file in a relative directory. -/
theorem names?_file_of_relative (ht : t.Rooted) {d : String} (h : isAbsolute (d ++ "/") = false)
    (hname : '/' ∉ name.toList) : t.names? (d ++ "/" ++ name) = some (pieces d ++ [name]) := by
  have hslash : d ++ "/" ≠ "" := by simp
  have hfilled : d ++ "/" ++ name ≠ "" := by simp
  rw [names?_of_relative ht ((isAbsolute_append hslash name).trans h) hfilled, pieces_file hname]

/-- The names on the way to a file in a directory: those on the way to the directory, with a blank
    at their end perhaps that does not count, and its own. -/
theorem names?_joined (ht : t.Rooted) {names : List String}
    (h : t.names? directory = some names) (hname : '/' ∉ name.toList) :
    ∃ before, t.names? (joined directory name) = some (before ++ [name]) ∧
      (names = before ∨ names = before ++ [""]) := by
  have hdirectory : directory ≠ "" := by
    rintro rfl
    cases h
  have hbelow : t.names? (t.root ++ "/" ++ name) = some ([] ++ [name]) := by
    rw [names?_below, pieces_of_slash_not_mem hname]
    rfl
  obtain ⟨d, hd, hjoined⟩ := joined_eq hdirectory hname
  rw [hjoined]
  -- The directory is written as `d` or as `d` with a slash at its end.
  rcases names?_cases h with ⟨hroot, rfl⟩ | ⟨rest, hrest, rfl⟩ | ⟨hrelative, -, rfl⟩
  · rcases hd with rfl | hd
    · exact ⟨[], hroot ▸ hbelow, Or.inl rfl⟩
    · have hslash : t.root.endsWith "/" = true := by
        rw [endsWith_iff, ← hroot, hd, String.toList_append]
        exact List.suffix_append _ _
      cases hslash.symm.trans ht.slash
  · rcases hd with rfl | hd
    · exact ⟨pieces rest, hrest ▸ names?_file t rest hname, Or.inl rfl⟩
    · rcases rest_cases (hrest.symm.trans hd) with ⟨rfl, rfl⟩ | ⟨r, rfl, rfl⟩
      · exact ⟨[], hbelow, Or.inr rfl⟩
      · exact ⟨pieces r, names?_file t r hname, Or.inr (pieces_slash r)⟩
  · rcases hd with rfl | rfl
    · have hslash := (isAbsolute_append hdirectory "/").trans hrelative
      exact ⟨pieces directory, names?_file_of_relative ht hslash hname, Or.inl rfl⟩
    · exact ⟨pieces d, names?_file_of_relative ht hrelative hname, Or.inr (pieces_slash d)⟩

/-! ## Places -/

theorem walk_append (t : Tree) (p : Place) (xs ys : List String) :
    t.walk p (xs ++ ys) = (t.walk p xs).bind fun q => t.walk q ys := by
  induction xs generalizing p with
  | nil => rfl
  | cons x xs ih =>
    rw [List.cons_append, walk, walk]
    split
    · rfl
    · split
      · exact ih p
      · split
        · exact ih p.dropLast
        · exact ih (p ++ [x])

theorem walk_blank {p q : Place} (h : t.walk p [""] = some q) : q = p := by
  unfold walk at h
  split at h
  · cases h
  · rw [if_pos (by decide)] at h
    exact (Option.some.inj h).symm

/-- A plain name seen from a directory is a place in it. -/
theorem place?_joined (ht : t.Rooted) (hplace : t.place? directory = some p)
    (hdir : t.isDir p = true) (hname : Plain name) :
    t.place? (joined directory name) = some (p ++ [name]) := by
  obtain ⟨names, hnames, hwalk⟩ := Option.bind_eq_some_iff.1 hplace
  obtain ⟨before, hjoined, hbefore⟩ := names?_joined ht hnames hname.slash
  have hwalk : t.walk [] before = some p := by
    rcases hbefore with rfl | rfl
    · exact hwalk
    · rw [walk_append] at hwalk
      obtain ⟨q, hq, hblank⟩ := Option.bind_eq_some_iff.1 hwalk
      rw [walk_blank hblank, hq]
  rw [place?, hjoined, Option.bind_some, walk_append, hwalk, Option.bind_some, walk, hdir]
  simp [hname.counts, hname.stays, walk]

/-! ## Files -/

theorem node?_put (t : Tree) {p : Place} (hp : p ≠ []) (node : Option ByteArray) (q : Place) :
    (t.put p node).node? q = if q = p then some node else t.node? q := by
  unfold node? put
  dsimp only
  rw [List.find?_append]
  by_cases hq : q = p
  · have hnone : (t.nodes.filter fun n => n.1 != p).find? (fun n => n.1 == q) = none := by
      rw [List.find?_eq_none]
      intro n hn
      simpa [hq] using (List.mem_filter.1 hn).2
    rw [if_pos hq, if_neg (by simpa [hq] using hp), hnone]
    simp [hq]
  · have hother : (t.nodes.filter fun n => n.1 != p).find? (fun n => n.1 == q) =
        t.nodes.find? fun n => n.1 == q := by
      rw [List.find?_filter]
      congr 1
      funext n
      by_cases hn : n.1 = q
      · simp [hn, hq]
      · simp [hn]
    rw [if_neg hq, hother]
    simp [Ne.symm hq]

/-- A file that is written is no directory, and takes the place of none. -/
theorem isDir_put (t : Tree) {p : Place} (hp : p ≠ []) (hfree : t.isDir p = false)
    (content : ByteArray) (q : Place) : (t.put p (some content)).isDir q = t.isDir q := by
  rw [isDir, node?_put t hp]
  split
  · next hq => rw [hq, hfree]; rfl
  · rfl

theorem walk_congr {t t' : Tree} (h : ∀ q, t'.isDir q = t.isDir q) (p : Place)
    (names : List String) : t'.walk p names = t.walk p names := by
  induction names generalizing p with
  | nil => rfl
  | cons name names ih => rw [walk, walk, h, ih, ih, ih]

/-- Files written into a directory, one after the other. -/
def writeAll (directory : String) (t : Tree) (files : List (String × ByteArray)) : Option Tree :=
  files.foldlM (fun t f => t.write? (joined directory f.1) f.2) t

theorem write?_joined (ht : t.Rooted) (hplace : t.place? directory = some p)
    (hdir : t.isDir p = true) (hname : Plain name) (hfree : t.isDir (p ++ [name]) = false)
    (content : ByteArray) :
    t.write? (joined directory name) content = some (t.put (p ++ [name]) (some content)) := by
  rw [write?, place?_joined ht hplace hdir hname]
  simp [hfree, hdir]

/-- **Files of distinct names that are written into one directory are all there afterwards**, and
    nothing else has changed. -/
theorem writeAll_distinct (ht : t.Rooted) (hplace : t.place? directory = some p)
    (hdir : t.isDir p = true) {files : List (String × ByteArray)}
    (hfiles : ∀ f ∈ files, Plain f.1 ∧ t.isDir (p ++ [f.1]) = false)
    (hdistinct : (files.map (·.1)).Nodup) :
    ∃ t', t.writeAll directory files = some t' ∧
      (∀ f ∈ files, t'.node? (p ++ [f.1]) = some (some f.2)) ∧
      ∀ q, (∀ f ∈ files, q ≠ p ++ [f.1]) → t'.node? q = t.node? q := by
  induction files generalizing t with
  | nil => exact ⟨t, rfl, by simp, fun _ _ => rfl⟩
  | cons f files ih =>
    obtain ⟨⟨hplain, hfree⟩, hfiles⟩ := List.forall_mem_cons.1 hfiles
    obtain ⟨hnew, hdistinct⟩ := List.nodup_cons.1 hdistinct
    let t₁ := t.put (p ++ [f.1]) (some f.2)
    have hne : p ++ [f.1] ≠ [] := by simp
    have hsame : ∀ q, t₁.isDir q = t.isDir q := isDir_put t hne hfree f.2
    have hplace₁ : t₁.place? directory = some p := by
      rw [← hplace]
      exact congrArg _ (funext fun names => walk_congr hsame [] names)
    obtain ⟨t', hwrite, hthere, hothers⟩ := ih (t := t₁) ⟨ht.absolute, ht.slash⟩ hplace₁
      ((hsame p).trans hdir) (fun g hg => ⟨(hfiles g hg).1, (hsame _).trans (hfiles g hg).2⟩)
      hdistinct
    refine ⟨t', ?_, List.forall_mem_cons.2 ⟨?_, hthere⟩, fun q hq => ?_⟩
    · rw [writeAll, List.foldlM_cons, write?_joined ht hplace hdir hplain hfree]
      exact hwrite
    · rw [hothers, node?_put t hne, if_pos rfl]
      intro g hg heq
      have hname : f.1 = g.1 := by simpa using heq
      exact hnew (List.mem_map.2 ⟨g, hg, hname.symm⟩)
    · obtain ⟨hqf, hq⟩ := List.forall_mem_cons.1 hq
      rw [hothers q hq, node?_put t hne, if_neg hqf]

end Tree

end Files

end Waybill
