/-
  The writes that filling hands to a workbook.

  A workbook may take for granted that it is asked to write only to cells that keep a value of their
  own.  To see what it is asked, it is filled while every write handed to it is recorded.

  * `Watched` is a workbook with a record of the writes handed to it, `Call` one of them;
  * `Tidy`: the merged ranges of each sheet are apart;
  * `Receptive` are the workbooks of a kind that take every such write, and stay so;
  * `Heeded`: filling hands only such writes to the workbook, and they are all taken.

  Statements: `Receptive.heeded` and `redirection_is_canonical`.
-/
import Waybill.Proofs.Mapping.Alike

namespace Waybill.Mapping

open Waybill.Payload Waybill.Sheet

/-! ## Watched workbooks -/

/-- A write that is handed to a workbook, and the workbook at that moment. -/
structure Call (β : Type) where
  book : β
  write : Write

/-- A workbook with a record of the writes handed to it. -/
structure Watched (β : Type) where
  book : β
  calls : List (Call β)

namespace Watched

variable {β : Type} [Workbook β]

/-- The workbook, to which nothing was handed yet. -/
def ofBook (b : β) : Watched β := ⟨b, []⟩

/-- The workbook after a write, whether it was taken or refused. -/
def write (x : Watched β) (w : Write) : Watched β :=
  ⟨match Workbook.write x.book w.sheet w.cell w.value with
    | .ok b => b
    | .error _ => x.book, x.calls ++ [⟨x.book, w⟩]⟩

end Watched

/-- A watched workbook records a write before it is known whether the workbook takes it. -/
instance {β : Type} [Workbook β] : Workbook (Watched β) where
  sheetNames x := Workbook.sheetNames x.book
  mergedRanges x := Workbook.mergedRanges x.book
  read x := Workbook.read x.book
  write x name c value := .ok (x.write ⟨name, c, value⟩)
  toBytes x := Workbook.toBytes x.book

instance {β : Type} [Workbook β] [Steady β] : Steady (Watched β) where
  mergedRanges_write {x x' name c value} h other := by
    obtain rfl := Except.ok.inj h
    change Workbook.mergedRanges (x.write ⟨name, c, value⟩).book other =
      Workbook.mergedRanges x.book other
    unfold Watched.write
    dsimp only
    cases hwrite : Workbook.write x.book name c value with
    | error e => rfl
    | ok b => exact Steady.mergedRanges_write hwrite other

/-! ## Workbooks that take what they are handed -/

variable {β : Type} [Workbook β]

/-- The merged ranges of each sheet that has readable ones are apart. -/
def Tidy (b : β) : Prop :=
  ∀ name ranges, Workbook.mergedRanges b name = .ok ranges → ranges.Pairwise Range.Apart

/-- The write is taken, and is to a cell that keeps a value of its own. -/
structure Call.Fits (call : Call β) : Prop where
  taken : ∃ b, Workbook.write call.book call.write.sheet call.write.cell call.write.value = .ok b
  keeps : ∃ ranges, Workbook.mergedRanges call.book call.write.sheet = .ok ranges ∧
    Keeps ranges call.write.cell

/-- Filling the workbook hands it only writes that fit, and watching it makes no difference. -/
structure Heeded (rules : List Rule) (payload : Value) (b : β) : Prop where
  same : fill rules payload b = ((fill rules payload (Watched.ofBook b)).1,
    (fill rules payload (Watched.ofBook b)).2.book)
  fits : ∀ call ∈ (fill rules payload (Watched.ofBook b)).2.calls, call.Fits

/-- The workbooks of a kind that take every write to a cell that keeps a value of its own, and whose
    merged ranges stay as they are. -/
def Receptive (β : Type) [Workbook β] : Prop :=
  ∀ (b : β) (name : String) (ranges : List Range) (c : Cell) (value : CellValue),
    Workbook.mergedRanges b name = .ok ranges → Keeps ranges c →
      ∃ b', Workbook.write b name c value = .ok b' ∧
        ∀ other, Workbook.mergedRanges b' other = Workbook.mergedRanges b other

/-- A workbook and the same one watched are matched: as its merged ranges are apart, a redirected
    write fits. -/
theorem Receptive.matched (h : Receptive β) :
    Matched fun (b : β) (x : Watched β) => Tidy b ∧ x.book = b ∧ ∀ call ∈ x.calls, call.Fits where
  sheetNames hbx := congrArg Workbook.sheetNames hbx.2.1
  mergedRanges name hbx := congrArg (Workbook.mergedRanges · name) hbx.2.1
  write {b x name ranges} target value hbx hranges := by
    obtain ⟨htidy, rfl, hfits⟩ := hbx
    have hkeeps := anchor_eq_redirected (htidy name ranges hranges) target
    obtain ⟨b', hwrite, hmerged⟩ := h x.book name ranges _ value hranges hkeeps
    have htidy' : Tidy b' := fun other ranges' hranges' =>
      htidy other ranges' ((hmerged other).symm.trans hranges')
    have hcall : Call.Fits ⟨x.book, ⟨name, redirected ranges target, value⟩⟩ :=
      ⟨⟨b', hwrite⟩, ranges, hranges, hkeeps⟩
    refine ⟨b', x.write ⟨name, redirected ranges target, value⟩, hwrite, rfl, ⟨htidy', ?_, ?_⟩,
      (hmerged name).trans hranges⟩
    · rw [Watched.write, hwrite]
    · intro call hmem
      rcases List.mem_append.1 hmem with hmem | hmem
      · exact hfits call hmem
      · exact List.mem_singleton.1 hmem ▸ hcall

theorem Receptive.heeded [Steady β] (h : Receptive β) {b : β} (hb : Tidy b)
    (rules : List Rule) (payload : Value) : Heeded rules payload b := by
  obtain ⟨hanswer, -, hbook, hfits⟩ := h.matched.fill rules payload
    (show Tidy b ∧ (Watched.ofBook b).book = b ∧ _ from ⟨hb, rfl, fun _ hcall => by cases hcall⟩)
  exact ⟨Prod.ext hanswer.symm hbook.symm, hfits⟩

theorem receptive_memory : Receptive Memory.Book := by
  intro b name ranges c value hranges hkeeps
  refine ⟨b.put name c value, Memory.Book.write_eq_ok hranges hkeeps value, fun other => ?_⟩
  exact Memory.Book.mergedRanges_of_shape (b.shape_put name c value) other

theorem receptive_xlsx : Receptive Xlsx.Book := by
  intro x name ranges c value hranges _
  exact ⟨_, Xlsx.Book.write_eq_ok hranges c value,
    fun other => Xlsx.Book.mergedRanges_putIn x name ⟨c, value, true⟩ other⟩

/-- **Redirection is canonical, and filling relies on it.**  Redirection by any rectangles that are
    apart is canonical.  So when the merged ranges of each sheet of a workbook are apart, every
    write that filling hands to it is to a cell that keeps a value of its own, and is taken, whether
    the workbook is kept as plain data, which refuses other writes to a merged cell, or is a
    spreadsheet, which takes it for granted that there are none. -/
theorem redirection_is_canonical :
    (∀ ranges : List Range, ranges.Pairwise Range.Apart → Canonical ranges) ∧
    (∀ b : Memory.Book, Tidy b → ∀ rules payload, Heeded rules payload b) ∧
    ∀ x : Xlsx.Book, Tidy x → ∀ rules payload, Heeded rules payload x :=
  ⟨fun _ => canonical_of_apart, fun _ hb => receptive_memory.heeded hb,
    fun _ hx => receptive_xlsx.heeded hx⟩

/-! ## A sample -/

theorem tidy_of_wellMerged {b : Memory.Book} (h : b.WellMerged) : Tidy b := by
  intro name ranges hranges
  obtain ⟨hread, hapart⟩ := h.mergedRanges_eq_ok (mem_sheetNames_of_mergedRanges hranges)
  obtain rfl := Except.ok.inj (hread.symm.trans hranges)
  exact hapart

theorem tidy_spreadsheet {b : Memory.Book} (hkeys : b.Canonical) (h : b.WellMerged) :
    Tidy b.spreadsheet := fun name ranges hranges =>
  tidy_of_wellMerged h name ranges
    (((stands_spreadsheet hkeys).mergedRanges name).symm.trans hranges)

theorem sample_redirection :
    Tidy sampleBook ∧ Heeded sampleRules samplePayload sampleBook ∧
    Tidy sampleBook.spreadsheet ∧ Heeded sampleRules samplePayload sampleBook.spreadsheet ∧
    (sampleBook.ranges "Note").Pairwise Range.Apart ∧ Canonical (sampleBook.ranges "Note") ∧
    ((fill sampleRules samplePayload (Watched.ofBook sampleBook)).2.calls.map fun call =>
      (call.write.sheet, call.write.cell)) =
        [("Note", ⟨2, 2⟩), ("Note", ⟨2, 2⟩), ("Note", ⟨1, 6⟩), ("Note", ⟨1, 7⟩)] := by
  have hplain : Tidy sampleBook := tidy_of_wellMerged wellMerged_sample
  have hsheets : Tidy sampleBook.spreadsheet := tidy_spreadsheet canonical_sample wellMerged_sample
  have hapart := (wellMerged_sample.mergedRanges_eq_ok
    (show "Note" ∈ Workbook.sheetNames sampleBook by decide)).2
  obtain ⟨hcanonical, hmemory, hxlsx⟩ := redirection_is_canonical
  exact ⟨hplain, hmemory _ hplain _ _, hsheets, hxlsx _ hsheets _ _, hapart,
    hcanonical _ hapart, by decide +kernel⟩

end Waybill.Mapping
