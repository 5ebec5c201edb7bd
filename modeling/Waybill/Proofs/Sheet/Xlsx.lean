/-
  Spreadsheet workbooks beside workbooks kept as plain data.

  * `ShownAs` is what a spreadsheet shows of a content;
  * `Shows` and `Stands` relate sheets and workbooks of one content;
  * `Memory.Book.spreadsheet` is the spreadsheet workbook of a content.

  Statements: `Stands.read` (every cell of both), `Stands.put` (a write keeps them together) and
  `stands_spreadsheet` (there is a spreadsheet for every content).
-/
import Waybill.Proofs.Sheet.Memory
import Waybill.Sheet.Xlsx

namespace Waybill.Sheet

/-! ## Contents -/

/-- What a spreadsheet shows of a content: a number in decimal, a truth value in capitals, a text
    as it is, and nothing where there is no content or an empty text. -/
inductive ShownAs : Option CellValue → Option String → Prop
  | absent : ShownAs none none
  | empty : ShownAs (some (.text "")) none
  | text {s : String} (h : s ≠ "") : ShownAs (some (.text s)) (some s)
  | number (x : Float) : ShownAs (some (.number x)) (some (Decimal.ofFloat x))
  | yes : ShownAs (some (.bool true)) (some "TRUE")
  | no : ShownAs (some (.bool false)) (some "FALSE")

theorem shownAs_shown (value : CellValue) : ShownAs (some value) (Xlsx.shown value) := by
  cases value with
  | text s =>
    by_cases h : s = ""
    · subst h
      exact .empty
    · have hshown : Xlsx.shown (.text s) = some s := if_neg (by simpa using h)
      exact hshown ▸ .text h
  | number x => exact .number x
  | bool b => cases b with
    | true => exact .yes
    | false => exact .no

theorem ShownAs.of_text {s : String} {text : Option String}
    (h : ShownAs (some (.text s)) text) (hs : s ≠ "") : text = some s := by
  cases h with
  | empty => exact (hs rfl).elim
  | text => rfl

namespace Xlsx

/-- What is shown in a cell. -/
def Page.text? (q : Page) (c : Cell) : Option String :=
  (q.slots.find? fun s => s.cell == c).bind fun s => shown s.value

/-- The sheet with a cell replaced. -/
def Page.put (q : Page) (slot : Slot) : Page :=
  { q with slots := Book.put slot q.slots }

theorem find?_put (slot : Slot) (slots : List Slot) (d : Cell) :
    (Book.put slot slots).find? (fun s => s.cell == d) =
      if slot.cell = d then some slot else slots.find? fun s => s.cell == d := by
  induction slots with
  | nil => simp [Book.put, List.find?_singleton]
  | cons s ss ih =>
    unfold Book.put
    by_cases hs : s.cell = slot.cell
    · rw [if_pos hs]
      by_cases hd : slot.cell = d <;> simp [hs, hd]
    · rw [if_neg hs]
      by_cases hd : s.cell = d
      · subst hd
        simp [Ne.symm hs]
      · rw [List.find?_cons_of_neg (by simpa using hd), ih,
          List.find?_cons_of_neg (by simpa using hd)]

theorem Page.text?_put (q : Page) (slot : Slot) (d : Cell) :
    (q.put slot).text? d = if slot.cell = d then shown slot.value else q.text? d := by
  unfold text? put
  rw [find?_put]
  split <;> rfl

/-! ## Merged ranges -/

namespace Book

theorem mergedRanges_eq (x : Book) (name : String) :
    x.mergedRanges name = match (x.pages.find? fun q => q.name == name).map (·.merged) with
      | some merged => merged.mapM Range.read
      | none => .error (.unknownSheet name) := by
  unfold mergedRanges page
  cases x.pages.find? fun q => q.name == name <;> rfl

theorem merged_putIn (name : String) (slot : Slot) (other : String) (pages : List Page) :
    ((putIn name slot pages).find? fun q => q.name == other).map (·.merged) =
      (pages.find? fun q => q.name == other).map (·.merged) := by
  induction pages with
  | nil => rfl
  | cons q qs ih =>
    unfold putIn
    split
    · rw [List.find?_cons, List.find?_cons]
      cases q.name == other <;> rfl
    · rw [List.find?_cons, List.find?_cons]
      cases q.name == other with
      | true => rfl
      | false => exact ih

theorem mergedRanges_putIn (x : Book) (name : String) (slot : Slot) (other : String) :
    (Book.mk (putIn name slot x.pages)).mergedRanges other = x.mergedRanges other := by
  rw [mergedRanges_eq, mergedRanges_eq, merged_putIn]

/-- A write that is not refused replaces the cell. -/
theorem eq_putIn_of_write {x x' : Book} {name : String} {c : Cell} {value : CellValue}
    (h : x.write name c value = .ok x') : x' = ⟨putIn name ⟨c, value, true⟩ x.pages⟩ := by
  unfold write at h
  cases hpage : x.page name with
  | error e =>
    rw [hpage] at h
    cases h
  | ok q =>
    rw [hpage] at h
    exact (Except.ok.inj h).symm

/-- A write to a sheet that is there is not refused. -/
theorem write_eq_ok {x : Book} {name : String} {ranges : List Range}
    (h : x.mergedRanges name = .ok ranges) (c : Cell) (value : CellValue) :
    x.write name c value = .ok ⟨putIn name ⟨c, value, true⟩ x.pages⟩ := by
  unfold mergedRanges at h
  unfold write
  cases hpage : x.page name with
  | error e =>
    rw [hpage] at h
    cases h
  | ok q => rfl

end Book

end Xlsx

/-! ## Sheets -/

/-- A sheet of a spreadsheet has the content of a sheet of plain data. -/
structure Shows (p : Memory.Page) (q : Xlsx.Page) : Prop where
  name : q.name = p.name
  merged : q.merged.mapM Range.read = p.merged.mapM Range.read
  cells : ∀ c : Cell, ShownAs (Memory.Book.content? p c.text) (q.text? c)

theorem Shows.put {p : Memory.Page} {q : Xlsx.Page} (h : Shows p q) (slot : Xlsx.Slot) :
    Shows (p.put slot.cell slot.value) (q.put slot) where
  name := h.name
  merged := h.merged
  cells d := by
    rw [Memory.content?_put, Xlsx.Page.text?_put]
    by_cases hd : slot.cell = d
    · rw [if_pos hd, if_pos (congrArg Cell.text hd)]
      exact shownAs_shown slot.value
    · rw [if_neg hd, if_neg fun htext => hd (Cell.text_injective htext)]
      exact h.cells d

/-! ## Workbooks -/

/-- A spreadsheet workbook has the content of a workbook kept as plain data: the same sheets in the
    same order, each with the same merged ranges and the same contents. -/
def Stands (b : Memory.Book) (x : Xlsx.Book) : Prop :=
  List.Forall₂ Shows b.pages x.pages

namespace Stands

variable {b : Memory.Book} {x : Xlsx.Book}

theorem sheetNames (h : Stands b x) : Workbook.sheetNames x = Workbook.sheetNames b := by
  obtain ⟨pages⟩ := b
  obtain ⟨sheets⟩ := x
  change sheets.map (·.name) = pages.map (·.name)
  change List.Forall₂ Shows pages sheets at h
  induction h with
  | nil => rfl
  | cons hpage _ ih => rw [List.map_cons, List.map_cons, hpage.name, ih]

/-- The sheets that a name finds have the same content. -/
theorem page (h : Stands b x) (name : String) :
    Option.Rel Shows (b.page? name) (x.pages.find? fun q => q.name == name) := by
  obtain ⟨pages⟩ := b
  obtain ⟨sheets⟩ := x
  change List.Forall₂ Shows pages sheets at h
  unfold Memory.Book.page?
  induction h with
  | nil => exact .none
  | @cons p q _ _ hpage _ ih =>
    rw [List.find?_cons, List.find?_cons, hpage.name]
    cases p.name == name with
    | true => exact .some hpage
    | false => exact ih

theorem mergedRanges (h : Stands b x) (name : String) :
    x.mergedRanges name = b.mergedRanges name := by
  have hpage := h.page name
  unfold Xlsx.Book.mergedRanges Xlsx.Book.page Memory.Book.mergedRanges Memory.Book.page
  revert hpage
  generalize b.page? name = p, x.pages.find? (fun q => q.name == name) = q
  rintro (hshows | _)
  · exact hshows.merged
  · rfl

/-- Every cell of every sheet is shown as its content. -/
theorem read (h : Stands b x) {name : String} (hname : name ∈ Workbook.sheetNames b) (c : Cell) :
    ∃ content text, b.read name c = .ok content ∧ x.read name c = .ok (text.map .text) ∧
      ShownAs content text := by
  obtain ⟨p, -, hp⟩ := Memory.Book.page?_of_mem_sheetNames hname
  have hpage := h.page name
  rw [hp] at hpage
  unfold Memory.Book.read Memory.Book.page Xlsx.Book.read Xlsx.Book.page
  rw [hp]
  revert hpage
  generalize x.pages.find? (fun q => q.name == name) = found
  rintro ⟨hshows⟩
  exact ⟨_, _, rfl, rfl, hshows.cells c⟩

/-- A spreadsheet refuses no write to a sheet that is there. -/
theorem write (h : Stands b x) {name : String} (hname : name ∈ Workbook.sheetNames b) (c : Cell)
    (value : CellValue) :
    x.write name c value = .ok ⟨Xlsx.Book.putIn name ⟨c, value, true⟩ x.pages⟩ := by
  obtain ⟨p, -, hp⟩ := Memory.Book.page?_of_mem_sheetNames hname
  have hpage := h.page name
  rw [hp] at hpage
  unfold Xlsx.Book.write Xlsx.Book.page
  revert hpage
  generalize x.pages.find? (fun q => q.name == name) = found
  rintro ⟨-⟩
  rfl

/-- The same write to both keeps them together. -/
theorem put (h : Stands b x) (name : String) (slot : Xlsx.Slot) :
    Stands (b.put name slot.cell slot.value) ⟨Xlsx.Book.putIn name slot x.pages⟩ := by
  obtain ⟨pages⟩ := b
  obtain ⟨sheets⟩ := x
  change List.Forall₂ Shows
    (Memory.Book.changeFirst name (·.put slot.cell slot.value) pages)
    (Xlsx.Book.putIn name slot sheets)
  change List.Forall₂ Shows pages sheets at h
  induction h with
  | nil => exact .nil
  | @cons p q _ _ hpage hpages ih =>
    have hfound : (q.name == name) = (p.name == name) := by rw [hpage.name]
    unfold Memory.Book.changeFirst Xlsx.Book.putIn
    rw [hfound]
    split
    · exact .cons (hpage.put slot) hpages
    · exact .cons hpage ih

end Stands

/-! ## The spreadsheet of a content -/

/-- The cells of every sheet are kept under the texts that cells are written as. -/
def Memory.Book.Canonical (b : Memory.Book) : Prop :=
  ∀ p ∈ b.pages, ∀ e ∈ p.cells, ∃ c, Cell.ofText? e.1 = some c ∧ c.text = e.1

/-- The spreadsheet sheet of a content. -/
def Memory.Page.spreadsheet (p : Memory.Page) : Xlsx.Page where
  name := p.name
  slots := p.cells.filterMap fun e => (Cell.ofText? e.1).map fun c => ⟨c, e.2, false⟩
  merged := p.merged

/-- The spreadsheet workbook of a content. -/
def Memory.Book.spreadsheet (b : Memory.Book) : Xlsx.Book :=
  ⟨b.pages.map Memory.Page.spreadsheet⟩

theorem text?_spreadsheet {p : Memory.Page}
    (h : ∀ e ∈ p.cells, ∃ c, Cell.ofText? e.1 = some c ∧ c.text = e.1) (d : Cell) :
    p.spreadsheet.text? d = (Memory.Book.content? p d.text).bind Xlsx.shown := by
  unfold Memory.Page.spreadsheet Xlsx.Page.text? Memory.Book.content?
  generalize p.cells = cells at h
  induction cells with
  | nil => rfl
  | cons e es ih =>
    obtain ⟨⟨c, hc, htext⟩, hes⟩ := List.forall_mem_cons.1 h
    have hfound : (c == d) = (e.1 == d.text) := by
      rw [← htext, Bool.eq_iff_iff, beq_iff_eq, beq_iff_eq, Cell.text_injective.eq_iff]
    rw [List.filterMap_cons, hc]
    simp only [Option.map_some, List.find?_cons, hfound]
    cases e.1 == d.text with
    | true => rfl
    | false => exact ih hes

/-- There is a spreadsheet for every content. -/
theorem stands_spreadsheet {b : Memory.Book} (h : b.Canonical) : Stands b b.spreadsheet := by
  change List.Forall₂ Shows b.pages (b.pages.map Memory.Page.spreadsheet)
  rw [List.forall₂_map_right_iff, List.forall₂_same]
  refine fun p hp => ⟨rfl, rfl, fun c => ?_⟩
  rw [text?_spreadsheet (h p hp)]
  cases Memory.Book.content? p c.text with
  | none => exact .absent
  | some value => exact shownAs_shown value

end Waybill.Sheet
