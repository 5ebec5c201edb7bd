/-
  Workbooks kept as plain data, seen from outside.

  * `Book.shape` are the names and merged ranges of the sheets, which a write leaves as they are;
  * `Book.ranges` are the merged ranges of a sheet, `Book.WellMerged` says that they can be read and
    are apart;
  * `Page.Besides`: a sheet is as it was, but for the contents under some texts.

  Statements: `write_eq_ok` and `write_redirected` (the writes that are not refused), `read_put`
  (every cell after a write), `besides_put` (every sheet after it) and `put_comm` (writes to
  different cells are done in either order).
-/
import Waybill.Proofs.Sheet.Cell
import Waybill.Sheet.Memory

/-! ## Members by name -/

namespace Waybill.Json

variable {α : Type} {name n : String}

theorem insertByName_of_lt (h : name < n) (value v : α) (rest : List (String × α)) :
    insertByName name value ((n, v) :: rest) = (name, value) :: (n, v) :: rest := by
  rw [insertByName, if_pos h]

theorem insertByName_self (name : String) (value v : α) (rest : List (String × α)) :
    insertByName name value ((name, v) :: rest) = (name, value) :: rest := by
  rw [insertByName, if_neg (lt_irrefl name), if_pos rfl]

theorem insertByName_of_gt (h : n < name) (value v : α) (rest : List (String × α)) :
    insertByName name value ((n, v) :: rest) = (n, v) :: insertByName name value rest := by
  rw [insertByName, if_neg h.not_gt, if_neg h.ne']

/-- Members of different names are inserted in either order. -/
theorem insertByName_comm {name name' : String} (h : name ≠ name') (value value' : α)
    (members : List (String × α)) :
    insertByName name value (insertByName name' value' members) =
      insertByName name' value' (insertByName name value members) := by
  wlog hlt : name < name' generalizing name name' value value'
  · exact (this h.symm value' value ((lt_or_gt_of_ne h).resolve_left hlt)).symm
  induction members with
  | nil => simp only [insertByName, hlt, hlt.not_gt, ↓reduceIte, hlt.ne']
  | cons head rest ih =>
    -- where the two go is told by the first member that does not come before them
    obtain ⟨n, v⟩ := head
    rcases lt_trichotomy n name with hn | rfl | hn
    · rw [insertByName_of_gt (hn.trans hlt), insertByName_of_gt hn, ih, insertByName_of_gt hn,
        insertByName_of_gt (hn.trans hlt)]
    · rw [insertByName_of_gt hlt, insertByName_self, insertByName_self, insertByName_of_gt hlt]
    · rw [insertByName_of_lt hn, insertByName_of_gt hlt]
      rcases lt_trichotomy n name' with hn' | rfl | hn'
      · rw [insertByName_of_gt hn', insertByName_of_lt hn]
      · rw [insertByName_self, insertByName_of_lt hlt]
      · rw [insertByName_of_lt hn', insertByName_of_lt hlt]

end Waybill.Json

namespace Waybill.Sheet.Memory

/-! ## Contents by text -/

/-- The sheet with the content of a cell replaced. -/
def Page.put (p : Page) (c : Cell) (value : CellValue) : Page :=
  { p with cells := Json.insertByName c.text value p.cells }

theorem content?_put (p : Page) (c : Cell) (value : CellValue) (key : String) :
    Book.content? (p.put c value) key =
      if c.text = key then some value else Book.content? p key := by
  unfold Book.content? Page.put
  rw [Json.find?_insertByName]
  split <;> rfl

theorem Page.name_put (p : Page) (c : Cell) (value : CellValue) : (p.put c value).name = p.name :=
  rfl

theorem Page.put_comm (p : Page) {c c' : Cell} (h : c ≠ c') (value value' : CellValue) :
    (p.put c value).put c' value' = (p.put c' value').put c value := by
  have htext : c'.text ≠ c.text := fun ht => h (Cell.text_injective ht).symm
  exact congrArg (Page.mk p.name · p.merged) (Json.insertByName_comm htext value' value p.cells)

/-- The sheet is as it was, but for the contents under some texts. -/
structure Page.Besides (written : String → Prop) (p p' : Page) : Prop where
  name : p'.name = p.name
  merged : p'.merged = p.merged
  content : ∀ key, ¬ written key → Book.content? p' key = Book.content? p key

namespace Page.Besides

variable {written more : String → Prop} {p p' p'' : Page}

theorem refl (written : String → Prop) (p : Page) : p.Besides written p :=
  ⟨rfl, rfl, fun _ _ => rfl⟩

theorem trans (h : p.Besides written p') (h' : p'.Besides more p'') :
    p.Besides (fun key => written key ∨ more key) p'' where
  name := h'.name.trans h.name
  merged := h'.merged.trans h.merged
  content key hkey :=
    (h'.content key fun hm => hkey (Or.inr hm)).trans (h.content key fun hw => hkey (Or.inl hw))

theorem imp (h : p.Besides written p') (himp : ∀ key, written key → more key) :
    p.Besides more p' :=
  ⟨h.name, h.merged, fun key hkey => h.content key fun hw => hkey (himp key hw)⟩

end Page.Besides

/-! ## The first sheet of a name -/

namespace Book

section
variable {name : String} {change : Page → Page}

theorem map_changeFirst {α : Type} {f : Page → α} (hf : ∀ p, f (change p) = f p)
    (pages : List Page) : (changeFirst name change pages).map f = pages.map f := by
  induction pages with
  | nil => rfl
  | cons p ps ih =>
    unfold changeFirst
    split
    · simp [hf]
    · simp [ih]

theorem find?_changeFirst (hname : ∀ p, (change p).name = p.name) (other : String)
    (pages : List Page) :
    (changeFirst name change pages).find? (fun p => p.name == other) =
      if name = other then (pages.find? fun p => p.name == other).map change
      else pages.find? fun p => p.name == other := by
  induction pages with
  | nil => simp [changeFirst]
  | cons p ps ih =>
    by_cases hp : p.name = name
    · rw [changeFirst, if_pos (by simpa using hp)]
      by_cases ho : name = other <;> simp [hname, hp, ho]
    · rw [changeFirst, if_neg (by simpa using hp)]
      by_cases ho : p.name = other
      · subst ho
        simp [Ne.symm hp]
      · rw [List.find?_cons_of_neg (by simpa using ho), ih,
          List.find?_cons_of_neg (by simpa using ho)]

/-- Only a sheet that is the first of the name is changed. -/
theorem getElem?_changeFirst (name : String) (change : Page → Page) {pages : List Page} {i : Nat}
    {p : Page} (hi : pages[i]? = some p) :
    (changeFirst name change pages)[i]? = some p ∨
      (changeFirst name change pages)[i]? = some (change p) ∧ p.name = name ∧
        name ∉ (pages.map (·.name)).take i := by
  induction pages generalizing i with
  | nil => cases hi
  | cons q qs ih =>
    unfold changeFirst
    cases i with
    | zero =>
      obtain rfl : q = p := by simpa using hi
      split
      · next hq => exact Or.inr ⟨rfl, by simpa using hq, by simp⟩
      · exact Or.inl rfl
    | succ i =>
      split
      · exact Or.inl hi
      · next hq =>
        refine (ih hi).imp_right fun ⟨hchange, hname, hfirst⟩ => ⟨hchange, hname, ?_⟩
        rw [List.map_cons, List.take_succ_cons, List.mem_cons, not_or]
        exact ⟨fun h => hq (by simpa using h.symm), hfirst⟩

theorem changeFirst_changeFirst (hname : ∀ p, (change p).name = p.name) (change' : Page → Page)
    (pages : List Page) :
    changeFirst name change' (changeFirst name change pages) =
      changeFirst name (change' ∘ change) pages := by
  induction pages with
  | nil => rfl
  | cons p ps ih =>
    by_cases hp : p.name == name <;> simp [changeFirst, hp, hname, ih]

theorem changeFirst_comm {name' : String} {change' : Page → Page} (h : name ≠ name')
    (hname : ∀ p, (change p).name = p.name) (hname' : ∀ p, (change' p).name = p.name)
    (pages : List Page) :
    changeFirst name' change' (changeFirst name change pages) =
      changeFirst name change (changeFirst name' change' pages) := by
  induction pages with
  | nil => rfl
  | cons p ps ih =>
    by_cases hp : p.name = name
    · have hp' : p.name ≠ name' := hp ▸ h
      simp [changeFirst, hp, hname, h]
    · by_cases hp' : p.name = name' <;> simp [changeFirst, hp, hp', hname', Ne.symm h, ih]

end

/-! ## Names and merged ranges -/

/-- The names and merged ranges of the sheets, in order. -/
def shape (b : Book) : List (String × List String) :=
  b.pages.map fun p => (p.name, p.merged)

/-- The merged ranges of a sheet, if they can be read. -/
def ranges (b : Book) (name : String) : List Range :=
  match b.mergedRanges name with
  | .ok ranges => ranges
  | .error _ => []

/-- The merged ranges of every sheet can be read, and are apart. -/
def WellMerged (b : Book) : Prop :=
  ∀ p ∈ b.pages, ∃ ranges, p.merged.mapM Range.read = .ok ranges ∧ ranges.Pairwise Range.Apart

variable {b b' : Book}

theorem sheetNames_eq (b : Book) : Workbook.sheetNames b = b.shape.map (·.1) := by
  rw [shape, List.map_map]
  rfl

theorem mergedRanges_eq (b : Book) (name : String) :
    b.mergedRanges name = match b.shape.find? fun s => s.1 == name with
      | some s => s.2.mapM Range.read
      | none => .error (.unknownSheet name) := by
  have hfind : (b.shape.find? fun s => s.1 == name) =
      (b.page? name).map fun p => (p.name, p.merged) := by
    rw [shape, List.find?_map]
    rfl
  rw [hfind, mergedRanges, page]
  cases b.page? name <;> rfl

theorem mergedRanges_of_shape (h : b'.shape = b.shape) (name : String) :
    b'.mergedRanges name = b.mergedRanges name := by
  rw [mergedRanges_eq, mergedRanges_eq, h]

theorem ranges_of_shape (h : b'.shape = b.shape) (name : String) :
    b'.ranges name = b.ranges name := by
  rw [ranges, ranges, mergedRanges_of_shape h]

theorem WellMerged.of_shape (hb : b.WellMerged) (h : b'.shape = b.shape) : b'.WellMerged := by
  intro p hp
  have hmem : (p.name, p.merged) ∈ b.shape := h ▸ List.mem_map_of_mem hp
  obtain ⟨q, hq, heq⟩ := List.mem_map.1 hmem
  obtain ⟨-, hmerged⟩ := Prod.mk.inj heq
  exact hmerged ▸ hb q hq

theorem page?_of_mem_sheetNames {name : String} (h : name ∈ Workbook.sheetNames b) :
    ∃ p ∈ b.pages, b.page? name = some p := by
  obtain ⟨q, hq, hname⟩ := List.mem_map.1 h
  cases hp : b.page? name with
  | none => exact absurd hname (by simpa using List.find?_eq_none.1 hp q hq)
  | some p => exact ⟨p, List.mem_of_find?_eq_some hp, rfl⟩

/-- The merged ranges of a sheet that is there are apart. -/
theorem WellMerged.mergedRanges_eq_ok (hb : b.WellMerged) {name : String}
    (h : name ∈ Workbook.sheetNames b) :
    b.mergedRanges name = .ok (b.ranges name) ∧ (b.ranges name).Pairwise Range.Apart := by
  obtain ⟨p, hp, hpage⟩ := page?_of_mem_sheetNames h
  obtain ⟨ranges, hread, hapart⟩ := hb p hp
  have hmerged : b.mergedRanges name = .ok ranges := by
    unfold mergedRanges page
    rw [hpage]
    exact hread
  rw [Book.ranges, hmerged]
  exact ⟨rfl, hapart⟩

/-! ## Writes -/

/-- A write to a cell that keeps a value of its own is not refused. -/
theorem write_eq_ok {name : String} {ranges : List Range} (h : b.mergedRanges name = .ok ranges)
    {c : Cell} (hc : Keeps ranges c) (value : CellValue) :
    b.write name c value = .ok (b.put name c value) := by
  have hany : (ranges.any fun r => r.contains c && r.anchor ≠ c) = false := by
    rw [List.any_eq_false]
    intro r hr hrefused
    obtain ⟨hcontains, hanchor⟩ : r.contains c = true ∧ r.anchor ≠ c := by simpa using hrefused
    exact hanchor (hc r hr hcontains)
  unfold write
  rw [h]
  simp only [bind, Except.bind, hany]
  rfl

/-- A write that is not refused puts the content into the cell. -/
theorem eq_put_of_write {name : String} {c : Cell} {value : CellValue}
    (h : b.write name c value = .ok b') : b' = b.put name c value := by
  unfold write at h
  cases hranges : b.mergedRanges name with
  | error e =>
    rw [hranges] at h
    cases h
  | ok ranges =>
    rw [hranges] at h
    simp only [bind, Except.bind] at h
    split at h
    · cases h
    · exact (Except.ok.inj h).symm

/-- A write to the cell that keeps the value of a cell is not refused. -/
theorem WellMerged.write_redirected (hb : b.WellMerged) {name : String}
    (h : name ∈ Workbook.sheetNames b) (target : Cell) (value : CellValue) :
    b.write name (redirected (b.ranges name) target) value =
      .ok (b.put name (redirected (b.ranges name) target) value) := by
  obtain ⟨hread, hapart⟩ := hb.mergedRanges_eq_ok h
  exact write_eq_ok hread (anchor_eq_redirected hapart target) value

section
variable (name : String) (c : Cell) (value : CellValue)

theorem pages_put (b : Book) :
    (b.put name c value).pages = changeFirst name (·.put c value) b.pages := rfl

theorem shape_put (b : Book) : (b.put name c value).shape = b.shape := by
  rw [shape, pages_put]
  refine map_changeFirst ?_ b.pages
  exact fun _ => rfl

theorem page?_put (b : Book) (other : String) : (b.put name c value).page? other =
    if name = other then (b.page? other).map (·.put c value) else b.page? other := by
  rw [page?, pages_put]
  refine find?_changeFirst ?_ other b.pages
  exact fun _ => rfl

variable {name}

/-- Every cell after a write. -/
theorem read_put (h : name ∈ Workbook.sheetNames b) (other : String) (d : Cell) :
    (b.put name c value).read other d =
      if name = other ∧ c = d then .ok (some value) else b.read other d := by
  unfold read page
  rw [page?_put]
  by_cases hname : name = other
  · subst hname
    obtain ⟨p, -, hp⟩ := page?_of_mem_sheetNames h
    rw [if_pos rfl, hp, Option.map_some]
    change Except.ok (content? (p.put c value) d.text) = _
    rw [content?_put]
    by_cases hc : c = d
    · rw [if_pos (congrArg Cell.text hc), if_pos ⟨rfl, hc⟩]
    · rw [if_neg fun htext => hc (Cell.text_injective htext), if_neg fun h => hc h.2]
      rfl
  · simp [hname]

variable (name)

/-- Every sheet after a write: only the first of a name has other contents. -/
theorem besides_put {i : Nat} {p : Page} (hi : b.pages[i]? = some p) :
    ∃ p', (b.put name c value).pages[i]? = some p' ∧ p.Besides (fun key =>
      p.name ∉ (Workbook.sheetNames b).take i ∧ name = p.name ∧ c.text = key) p' := by
  rcases getElem?_changeFirst name (·.put c value) hi with hkept | ⟨hput, rfl, hfirst⟩
  · exact ⟨p, hkept, .refl _ p⟩
  · refine ⟨p.put c value, hput, rfl, rfl, fun key hkey => ?_⟩
    exact (content?_put p c value key).trans (if_neg fun htext => hkey ⟨hfirst, rfl, htext⟩)

/-- Writes to different cells are done in either order. -/
theorem put_comm (b : Book) {name name' : String} {c c' : Cell} (h : (name, c) ≠ (name', c'))
    (value value' : CellValue) :
    (b.put name c value).put name' c' value' = (b.put name' c' value').put name c value := by
  refine congrArg Book.mk ?_
  change changeFirst name' (·.put c' value') (changeFirst name (·.put c value) b.pages) =
    changeFirst name (·.put c value) (changeFirst name' (·.put c' value') b.pages)
  by_cases hname : name = name'
  · subst hname
    have hc : c ≠ c' := fun hc => h (hc ▸ rfl)
    rw [changeFirst_changeFirst (·.name_put c value),
      changeFirst_changeFirst (·.name_put c' value')]
    refine congrArg (changeFirst name · b.pages) (funext fun p => ?_)
    exact p.put_comm hc value value'
  · exact changeFirst_comm hname (·.name_put c value) (·.name_put c' value') b.pages

end

end Book

end Waybill.Sheet.Memory
