/-
  Workbooks of two kinds that are filled alike.

  Filling asks a workbook for the names of its sheets and for merged ranges, and writes to cells
  that keep a value.  A relation that these operations respect is respected by filling, to its end
  or to its first violation.

  * `Matched`: a relation that the operations respect.

  Statements: `Matched.fill` and `spreadsheets_fill_alike`.
-/
import Waybill.Proofs.Mapping.Plan
import Waybill.Proofs.Sheet.Xlsx

namespace Waybill.Mapping

open Waybill.Payload Waybill.Sheet

/-! ## Filling -/

variable {β γ : Type} [Workbook β] [Workbook γ] {R : β → γ → Prop}

/-- A relation between workbooks that the operations respect: related workbooks have the same sheets
    and merged ranges, and a write to a cell that keeps a value is done by both, leaves them related
    and the merged ranges as they are. -/
structure Matched (R : β → γ → Prop) : Prop where
  sheetNames {b : β} {x : γ} : R b x → Workbook.sheetNames x = Workbook.sheetNames b
  mergedRanges {b : β} {x : γ} (name : String) :
    R b x → Workbook.mergedRanges x name = Workbook.mergedRanges b name
  write {b : β} {x : γ} {name : String} {ranges : List Range} (target : Cell) (value : CellValue) :
    R b x → Workbook.mergedRanges b name = .ok ranges →
      ∃ b' x', Workbook.write b name (redirected ranges target) value = .ok b' ∧
        Workbook.write x name (redirected ranges target) value = .ok x' ∧
        R b' x' ∧ Workbook.mergedRanges b' name = .ok ranges

/-- Related workbooks, of which a sheet has the merged ranges. -/
def Ranged (R : β → γ → Prop) (name : String) (ranges : List Range) (b : β) (x : γ) : Prop :=
  R b x ∧ Workbook.mergedRanges b name = .ok ranges

namespace Matched

variable (h : Matched R) {rule : Rule} {ranges : List Range} {b : β} {x : γ}
include h

theorem put (target : Cell) (value : Option Value)
    (hbx : Ranged R rule.worksheet ranges b x) :
    Level (Ranged R rule.worksheet ranges) (put rule ranges target value b)
      (put rule ranges target value x) := by
  unfold Mapping.put
  cases content rule target value with
  | error e => exact ⟨rfl, hbx⟩
  | ok c =>
    obtain ⟨b', x', hb, hx, hbx'⟩ := h.write target c hbx.1 hbx.2
    simp only [hb, hx]
    exact ⟨rfl, hbx'⟩

theorem putRow (first : Cell) (row : Option Value × Nat)
    (hbx : Ranged R rule.worksheet ranges b x) :
    Level (Ranged R rule.worksheet ranges) (putRow rule ranges first row b)
      (putRow rule ranges first row x) := by
  unfold Mapping.putRow
  cases first.down row.2 with
  | none => exact ⟨rfl, hbx⟩
  | some target => exact h.put target row.1 hbx

theorem applyAt (payload : Value) (first : Cell) (hbx : Ranged R rule.worksheet ranges b x) :
    Level (Ranged R rule.worksheet ranges) (applyAt rule payload ranges first b)
      (applyAt rule payload ranges first x) := by
  unfold Mapping.applyAt
  split
  · dsimp only
    split
    · exact ⟨rfl, hbx⟩
    · exact level_eachOf (fun row _ _ => h.putRow first row) _ hbx
  · exact h.put first _ hbx

theorem applyAnew (payload : Value) (rule : Rule) (hbx : R b x) :
    Level R (applyAnew payload rule b) (applyAnew payload rule x) := by
  unfold Mapping.applyAnew
  rw [h.sheetNames hbx, h.mergedRanges rule.worksheet hbx]
  split
  · exact ⟨rfl, hbx⟩
  · cases Cell.ofText? rule.cell with
    | none => exact ⟨rfl, hbx⟩
    | some first =>
      cases hranges : Workbook.mergedRanges b rule.worksheet with
      | error e => exact ⟨rfl, hbx⟩
      | ok ranges => exact (h.applyAt payload first ⟨hbx, hranges⟩).mono fun _ _ => And.left

/-- Filling respects what the operations respect. -/
theorem fill [Steady β] [Steady γ] (rules : List Rule) (payload : Value) (hbx : R b x) :
    Level R (fill rules payload b) (fill rules payload x) := by
  rw [fill_eq_eachOf, fill_eq_eachOf]
  exact level_eachOf (fun rule _ _ => h.applyAnew payload rule) rules hbx

end Matched

/-! ## Plain data and spreadsheets -/

theorem mem_sheetNames_of_mergedRanges {b : Memory.Book} {name : String} {ranges : List Range}
    (h : b.mergedRanges name = .ok ranges) : name ∈ Workbook.sheetNames b := by
  unfold Memory.Book.mergedRanges Memory.Book.page at h
  cases hpage : b.page? name with
  | none =>
    rw [hpage] at h
    cases h
  | some p =>
    obtain rfl : p.name = name := by simpa using List.find?_some hpage
    exact List.mem_map_of_mem (List.mem_of_find?_eq_some hpage)

instance : Steady Xlsx.Book where
  mergedRanges_write {x x' name c value} h other := by
    obtain rfl := Xlsx.Book.eq_putIn_of_write h
    exact Xlsx.Book.mergedRanges_putIn x name ⟨c, value, true⟩ other

/-- Plain data whose merged ranges are apart, and a spreadsheet of the same content, are matched:
    a write that plain data would refuse does not come about. -/
theorem matched_stands :
    Matched fun (b : Memory.Book) (x : Xlsx.Book) => b.WellMerged ∧ Stands b x where
  sheetNames hbx := hbx.2.sheetNames
  mergedRanges name hbx := hbx.2.mergedRanges name
  write {b x name ranges} target value hbx hranges := by
    obtain ⟨hb, hstands⟩ := hbx
    have hname := mem_sheetNames_of_mergedRanges hranges
    obtain rfl : b.ranges name = ranges :=
      Except.ok.inj ((hb.mergedRanges_eq_ok hname).1.symm.trans hranges)
    have hshape := b.shape_put name (redirected (b.ranges name) target) value
    refine ⟨_, _, hb.write_redirected hname target value, hstands.write hname _ value,
      ⟨hb.of_shape hshape, hstands.put name ⟨_, value, true⟩⟩, ?_⟩
    exact (Memory.Book.mergedRanges_of_shape hshape name).trans hranges

/-- **Plain data stands for a spreadsheet.**  Every workbook kept as plain data, with its cells
    under the texts that cells are written as, is the content of a spreadsheet.  When its merged
    ranges can be read and are apart, filling it and filling any spreadsheet of that content have the same
    answer, a success or the same violation.  Both are left with the same sheets and one content
    again: in every cell the spreadsheet shows the number that plain data holds in decimal, the
    truth value in capitals, the text, or nothing. -/
theorem spreadsheets_fill_alike (b : Memory.Book) (hkeys : b.Canonical) (hb : b.WellMerged) :
    Stands b b.spreadsheet ∧
    ∀ x, Stands b x → ∀ (rules : List Rule) (payload : Value),
      let plain := fill rules payload b
      let sheets := fill rules payload x
      sheets.1 = plain.1 ∧ Stands plain.2 sheets.2 ∧
      Workbook.sheetNames plain.2 = Workbook.sheetNames b ∧
      Workbook.sheetNames sheets.2 = Workbook.sheetNames b ∧
      ∀ name ∈ Workbook.sheetNames b, ∀ c, ∃ content text,
        Workbook.read plain.2 name c = .ok content ∧
        Workbook.read sheets.2 name c = .ok (text.map .text) ∧ ShownAs content text := by
  refine ⟨stands_spreadsheet hkeys, ?_⟩
  intro x hx rules payload plain sheets
  obtain ⟨hanswer, hafter⟩ := matched_stands.fill rules payload ⟨hb, hx⟩
  have hnames : Workbook.sheetNames plain.2 = Workbook.sheetNames b := by
    have hshape : plain.2.shape = b.shape :=
      (congrArg (·.2.shape) (fill_eq_replay hb rules payload)).trans (shape_replay _ b)
    rw [Memory.Book.sheetNames_eq, hshape, ← Memory.Book.sheetNames_eq]
  refine ⟨hanswer, hafter.2, hnames, hafter.2.sheetNames.trans hnames, fun name hname c => ?_⟩
  exact hafter.2.read (hnames ▸ hname) c

theorem eq_text_of_asText {value : CellValue} {s : String} (h : value.asText = some s) :
    value = .text s := by
  cases value with
  | text t => exact congrArg CellValue.text (Option.some.inj h)
  | _ => cases h

theorem canonical_sample : sampleBook.Canonical := by
  intro p hp e he
  obtain rfl := List.mem_singleton.1 hp
  obtain rfl := List.mem_singleton.1 he
  exact ⟨⟨1, 1⟩, by decide +kernel, by decide +kernel⟩

theorem sample_spreadsheets_fill_alike : sampleBook.Canonical ∧ sampleBook.WellMerged ∧
    Stands sampleBook sampleBook.spreadsheet ∧
    (fill sampleRules samplePayload sampleBook.spreadsheet).1 =
      (fill sampleRules samplePayload sampleBook).1 ∧
    (fill sampleRules samplePayload sampleBook.spreadsheet).2.read "Note" ⟨2, 2⟩ =
      .ok (some (.text "SHP-1")) := by
  obtain ⟨hstands, hfill⟩ :=
    spreadsheets_fill_alike sampleBook canonical_sample wellMerged_sample
  obtain ⟨hanswer, -, -, -, hread⟩ :=
    hfill sampleBook.spreadsheet hstands sampleRules samplePayload
  obtain ⟨content, text, hplain, hsheet, hshown⟩ := hread "Note" (by decide) ⟨2, 2⟩
  refine ⟨canonical_sample, wellMerged_sample, hstands, hanswer, ?_⟩
  -- the last write to the cell is known before anything is written
  have hlast : (lastWrite? (writesBefore (plan sampleBook samplePayload sampleRules)) "Note"
      ⟨2, 2⟩).map (·.value.asText) = some (some "SHP-1") := by
    decide +kernel
  obtain ⟨w, hw, hvalue⟩ := Option.map_eq_some_iff.1 hlast
  have hwritten : (fill sampleRules samplePayload sampleBook).2.read "Note" ⟨2, 2⟩ =
      .ok (some w.value) := by
    rw [fill_eq_replay wellMerged_sample, replay_snd,
      read_written fun w hw => sheet_of_mem_writesBefore hw, hw]
  obtain rfl := Except.ok.inj (hwritten.symm.trans hplain)
  rw [eq_text_of_asText hvalue] at hshown
  rw [hshown.of_text (by decide)] at hsheet
  exact hsheet

end Waybill.Mapping
