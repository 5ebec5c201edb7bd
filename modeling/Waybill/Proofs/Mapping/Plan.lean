/-
  What the filling of a workbook comes to: a list of writes and violations that is known before
  anything is written.

  * `Planned` is a write or a violation; `planValue`, `planRow`, `planRule` and `plan` are the steps
    for a value, a row of a repeating rule, a rule, and rules in order;
  * `violations` and `writesBefore` are the violations of a plan, and its writes before the first
    one;
  * `replay` does the steps of a plan, `lastWrite?` is the last of writes to a cell.

  Statements: `fill_eq_replay` (filling does the steps of the plan), `read_written` (every cell
  after writes) and `fill_performs_plan`.
-/
import Waybill.Proofs.Mapping.Known
import Waybill.Proofs.Sheet.Memory

namespace Waybill.Mapping

open Waybill.Payload Waybill.Sheet

/-! ## Plans -/

/-- A content that is put into a cell of a sheet. -/
structure Write where
  sheet : String
  cell : Cell
  value : CellValue

/-- A step of a plan. -/
inductive Planned where
  | write (w : Write)
  | violation (e : FillError)

/-- The step for a payload value: the value as the rule transforms it, or an empty text when there
    is none, is put into the cell that keeps the value of the target. -/
def planValue (rule : Rule) (ranges : List Range) (target : Cell) (value : Option Value) :
    Planned :=
  if isMissing value then
    if rule.required then .violation (.missingRequired rule.worksheet target.text rule.source)
    else .write ⟨rule.worksheet, redirected ranges target, .text ""⟩
  else match value with
    | some (.scalar s) => .write ⟨rule.worksheet, redirected ranges target,
        (Transform.ofName rule.transform).apply s⟩
    | _ => .violation (.notScalar rule.worksheet target.text rule.source)

/-- The step for a row of a repeating rule, so many rows below the first. -/
def planRow (rule : Rule) (ranges : List Range) (first : Cell) (row : Option Value × Nat) :
    Planned :=
  if first.row + row.2 ≤ maxRow then
    planValue rule ranges ⟨first.column, first.row + row.2⟩ row.1
  else .violation (.invalidCell rule.worksheet (first.text ++ "+" ++ toString row.2))

/-- The steps for a rule. -/
def planRule (b : Memory.Book) (payload : Value) (rule : Rule) : List Planned :=
  if rule.worksheet ∉ Workbook.sheetNames b then
    [.violation (.unknownWorksheet rule.worksheet)]
  else match Cell.ofText? rule.cell with
    | none => [.violation (.invalidCell rule.worksheet rule.cell)]
    | some first =>
      let ranges := b.ranges rule.worksheet
      if isRepeating rule.source then
        let rows := payload.rows rule.source
        if rule.required = true ∧ rows = [] then
          [.violation (.missingRequired rule.worksheet first.text rule.source)]
        else rows.zipIdx.map (planRow rule ranges first)
      else [planValue rule ranges first (payload.resolve rule.source)]

/-- The steps for rules in order. -/
def plan (b : Memory.Book) (payload : Value) (rules : List Rule) : List Planned :=
  rules.flatMap (planRule b payload)

/-- The violations of a plan, in order. -/
def violations (steps : List Planned) : List FillError :=
  steps.filterMap fun
    | .write _ => none
    | .violation e => some e

/-- The writes of a plan before its first violation. -/
def writesBefore : List Planned → List Write
  | .write w :: steps => w :: writesBefore steps
  | _ => []

/-- The last write to a cell. -/
def lastWrite? (writes : List Write) (name : String) (c : Cell) : Option Write :=
  (writes.filter fun w => w.sheet = name ∧ w.cell = c).getLast?

/-! ## Doing a plan -/

/-- Does the steps of a plan until the first violation. -/
def replay : List Planned → Memory.Book → Left FillError Memory.Book
  | [], b => (.ok (), b)
  | .write w :: steps, b => replay steps (b.put w.sheet w.cell w.value)
  | .violation e :: _, b => (.error e, b)

theorem replay_append (steps more : List Planned) (b : Memory.Book) :
    replay (steps ++ more) b = match replay steps b with
      | (.ok _, b) => replay more b
      | (.error e, b) => (.error e, b) := by
  induction steps generalizing b with
  | nil => rfl
  | cons step steps ih =>
    cases step with
    | write w => exact ih _
    | violation e => rfl

theorem shape_replay (steps : List Planned) (b : Memory.Book) :
    (replay steps b).2.shape = b.shape := by
  induction steps generalizing b with
  | nil => rfl
  | cons step steps ih =>
    cases step with
    | write w => exact (ih _).trans (Memory.Book.shape_put ..)
    | violation e => rfl

/-- The answer after the steps of a plan is its first violation. -/
theorem replay_fst (steps : List Planned) (b : Memory.Book) :
    (replay steps b).1 = match (violations steps).head? with
      | none => .ok ()
      | some e => .error e := by
  induction steps generalizing b with
  | nil => rfl
  | cons step steps ih =>
    cases step with
    | write w => exact ih _
    | violation e => rfl

/-! ## Filling does the plan -/

/-- The names, ranges and hence the plan are the same for workbooks of one shape. -/
theorem planRule_of_shape {b b' : Memory.Book} (h : b'.shape = b.shape) (payload : Value)
    (rule : Rule) : planRule b' payload rule = planRule b payload rule := by
  unfold planRule
  rw [Memory.Book.sheetNames_eq, h, ← Memory.Book.sheetNames_eq, Memory.Book.ranges_of_shape h]

/-- Steps in a row are a plan when each of them is. -/
theorem eachOf_eq_replay {α : Type} {step : α → Memory.Book → Left FillError Memory.Book}
    {f : α → List Planned} {b : Memory.Book}
    (h : ∀ a, ∀ b', b'.shape = b.shape → step a b' = replay (f a) b') (as : List α) :
    eachOf step as b = replay (as.flatMap f) b := by
  suffices ∀ b', b'.shape = b.shape → eachOf step as b' = replay (as.flatMap f) b' from this b rfl
  induction as with
  | nil => exact fun _ _ => rfl
  | cons a as ih =>
    intro b' hb'
    have hshape := (shape_replay (f a) b').trans hb'
    rw [eachOf, h a b' hb', List.flatMap_cons, replay_append]
    generalize replay (f a) b' = left at hshape
    obtain ⟨_ | _, b''⟩ := left
    · rfl
    · exact ih b'' hshape

/-- The step for a value is what the rule makes of it. -/
theorem planValue_eq (rule : Rule) (ranges : List Range) (target : Cell) (value : Option Value) :
    planValue rule ranges target value = match content rule target value with
      | .ok c => .write ⟨rule.worksheet, redirected ranges target, c⟩
      | .error e => .violation e := by
  unfold planValue content
  by_cases hmissing : isMissing value
  · rw [if_pos hmissing, if_pos hmissing]
    cases rule.required <;> rfl
  · rw [if_neg hmissing, if_neg hmissing]
    rcases value with - | s | items | fields <;> rfl

section
variable {b : Memory.Book} (hb : b.WellMerged) {rule : Rule}
  (hname : rule.worksheet ∈ Workbook.sheetNames b)
include hb hname

theorem put_eq_replay (target : Cell) (value : Option Value) :
    put rule (b.ranges rule.worksheet) target value b =
      replay [planValue rule (b.ranges rule.worksheet) target value] b := by
  rw [planValue_eq, put]
  cases content rule target value with
  | error e => rfl
  | ok c =>
    dsimp only
    rw [show Workbook.write b rule.worksheet (redirected (b.ranges rule.worksheet) target) c = _
      from hb.write_redirected hname target c]
    rfl

theorem putRow_eq_replay (first : Cell) (row : Option Value × Nat) :
    putRow rule (b.ranges rule.worksheet) first row b =
      replay [planRow rule (b.ranges rule.worksheet) first row] b := by
  unfold putRow Cell.down planRow
  by_cases h : first.row + row.2 ≤ maxRow
  · rw [if_pos h, if_pos h]
    exact put_eq_replay hb hname _ _
  · rw [if_neg h, if_neg h]
    rfl

/-- A repeating rule does the steps of its rows. -/
theorem rows_eq_replay (first : Cell) (rows : List (Option Value × Nat)) :
    eachOf (putRow rule (b.ranges rule.worksheet) first) rows b =
      replay (rows.map (planRow rule (b.ranges rule.worksheet) first)) b := by
  rw [List.map_eq_flatMap]
  refine eachOf_eq_replay (fun row b' hshape => ?_) rows
  have hname' : rule.worksheet ∈ Workbook.sheetNames b' := by
    rwa [Memory.Book.sheetNames_eq, hshape, ← Memory.Book.sheetNames_eq]
  rw [← Memory.Book.ranges_of_shape hshape]
  exact putRow_eq_replay (hb.of_shape hshape) hname' first row

end

theorem applyAnew_eq_replay {b : Memory.Book} (hb : b.WellMerged) (payload : Value) (rule : Rule) :
    applyAnew payload rule b = replay (planRule b payload rule) b := by
  unfold applyAnew planRule
  by_cases hname : rule.worksheet ∈ Workbook.sheetNames b
  · rw [if_neg (by simpa using hname), if_neg (by simpa using hname)]
    cases Cell.ofText? rule.cell with
    | none => rfl
    | some first =>
      dsimp only
      rw [show Workbook.mergedRanges b rule.worksheet = _ from (hb.mergedRanges_eq_ok hname).1]
      dsimp only [applyAt]
      by_cases hrepeating : isRepeating rule.source
      · rw [if_pos hrepeating, if_pos hrepeating]
        by_cases hrows : rule.required = true ∧ payload.rows rule.source = []
        · rw [if_pos hrows, if_pos (by simpa using hrows)]
          rfl
        · rw [if_neg hrows, if_neg (by simpa using hrows)]
          exact rows_eq_replay hb hname first _
      · rw [if_neg hrepeating, if_neg hrepeating]
        exact put_eq_replay hb hname first _
  · rw [if_pos (by simpa using hname), if_pos (by simpa using hname)]
    rfl

instance : Steady Memory.Book where
  mergedRanges_write {b b' name c value} h other := by
    obtain rfl := Memory.Book.eq_put_of_write h
    exact Memory.Book.mergedRanges_of_shape (b.shape_put name c value) other

/-- Filling a workbook does the steps of its plan. -/
theorem fill_eq_replay {b : Memory.Book} (hb : b.WellMerged) (rules : List Rule)
    (payload : Value) : fill rules payload b = replay (plan b payload rules) b := by
  rw [fill_eq_eachOf]
  refine eachOf_eq_replay (fun rule b' hshape => ?_) rules
  rw [← planRule_of_shape hshape]
  exact applyAnew_eq_replay (hb.of_shape hshape) payload rule

/-! ## Every cell -/

theorem sheet_of_planValue {rule : Rule} {ranges : List Range} {target : Cell}
    {value : Option Value} {w : Write} (h : planValue rule ranges target value = .write w) :
    w.sheet = rule.worksheet := by
  rw [planValue_eq] at h
  split at h
  · cases h
    rfl
  · cases h

theorem sheet_of_planRow {rule : Rule} {ranges : List Range} {first : Cell}
    {row : Option Value × Nat} {w : Write} (h : planRow rule ranges first row = .write w) :
    w.sheet = rule.worksheet := by
  unfold planRow at h
  split at h
  · exact sheet_of_planValue h
  · cases h

variable {b : Memory.Book}

theorem sheet_of_mem_planRule {payload : Value} {rule : Rule} {w : Write}
    (hw : .write w ∈ planRule b payload rule) : w.sheet ∈ Workbook.sheetNames b := by
  suffices rule.worksheet ∈ Workbook.sheetNames b ∧ w.sheet = rule.worksheet from
    this.2 ▸ this.1
  unfold planRule at hw
  by_cases hname : rule.worksheet ∈ Workbook.sheetNames b
  · refine ⟨hname, ?_⟩
    rw [if_neg (by simpa using hname)] at hw
    cases hcell : Cell.ofText? rule.cell with
    | none => simp [hcell] at hw
    | some first =>
      simp only [hcell] at hw
      split at hw
      · split at hw
        · simp at hw
        · obtain ⟨row, -, hrow⟩ := List.mem_map.1 hw
          exact sheet_of_planRow hrow
      · exact sheet_of_planValue (List.mem_singleton.1 hw).symm
  · simp [hname] at hw

theorem mem_of_mem_writesBefore {steps : List Planned} {w : Write} (h : w ∈ writesBefore steps) :
    .write w ∈ steps := by
  induction steps with
  | nil => cases h
  | cons step steps ih =>
    cases step with
    | violation e => cases h
    | write first =>
      rcases List.mem_cons.1 h with rfl | h
      · exact List.mem_cons_self
      · exact List.mem_cons_of_mem _ (ih h)

/-- Every write of a plan is to a sheet that is there. -/
theorem sheet_of_mem_writesBefore {payload : Value} {rules : List Rule} {w : Write}
    (hw : w ∈ writesBefore (plan b payload rules)) : w.sheet ∈ Workbook.sheetNames b := by
  obtain ⟨rule, -, hrule⟩ := List.mem_flatMap.1 (mem_of_mem_writesBefore hw)
  exact sheet_of_mem_planRule hrule

/-- The workbook after writes. -/
def written (writes : List Write) (b : Memory.Book) : Memory.Book :=
  writes.foldl (fun b w => b.put w.sheet w.cell w.value) b

theorem replay_snd (steps : List Planned) (b : Memory.Book) :
    (replay steps b).2 = written (writesBefore steps) b := by
  induction steps generalizing b with
  | nil => rfl
  | cons step steps ih =>
    cases step with
    | write w => exact ih _
    | violation e => rfl

theorem lastWrite?_cons (w : Write) (writes : List Write) (name : String) (c : Cell) :
    lastWrite? (w :: writes) name c =
      (lastWrite? writes name c).or (if w.sheet = name ∧ w.cell = c then some w else none) := by
  unfold lastWrite?
  rw [List.filter_cons]
  by_cases h : w.sheet = name ∧ w.cell = c
  · simp only [h, and_self, decide_true, ↓reduceIte]
    rw [List.getLast?_cons]
    cases List.getLast? _ <;> rfl
  · rw [if_neg (by simpa using h), if_neg h, Option.or_none]

/-- Every cell after writes. -/
theorem read_written {writes : List Write} (h : ∀ w ∈ writes, w.sheet ∈ Workbook.sheetNames b)
    (name : String) (c : Cell) :
    (written writes b).read name c = match lastWrite? writes name c with
      | some w => .ok (some w.value)
      | none => b.read name c := by
  induction writes generalizing b with
  | nil => rfl
  | cons w writes ih =>
    obtain ⟨hw, hwrites⟩ := List.forall_mem_cons.1 h
    have hnames : ∀ w' ∈ writes, w'.sheet ∈ Workbook.sheetNames (b.put w.sheet w.cell w.value) := by
      rwa [Memory.Book.sheetNames_eq, Memory.Book.shape_put, ← Memory.Book.sheetNames_eq]
    refine (ih hnames).trans ?_
    rw [lastWrite?_cons]
    cases lastWrite? writes name c with
    | some last => rfl
    | none =>
      dsimp only [Option.none_or]
      rw [Memory.Book.read_put _ _ hw]
      by_cases hc : w.sheet = name ∧ w.cell = c
      · rw [if_pos hc, if_pos hc]
      · rw [if_neg hc, if_neg hc]

/-- Every sheet after writes: only the first of a name has other contents, in the cells that were
    written. -/
theorem besides_written (writes : List Write) {i : Nat} {p : Memory.Page}
    (hi : b.pages[i]? = some p) :
    ∃ p', (written writes b).pages[i]? = some p' ∧ p.Besides (fun key =>
      p.name ∉ (Workbook.sheetNames b).take i ∧
        ∃ w ∈ writes, w.sheet = p.name ∧ w.cell.text = key) p' := by
  induction writes generalizing b p with
  | nil => exact ⟨p, hi, .refl _ p⟩
  | cons w writes ih =>
    obtain ⟨p', hi', hput⟩ := Memory.Book.besides_put w.sheet w.cell w.value hi
    obtain ⟨p'', hi'', hwritten⟩ := ih hi'
    refine ⟨p'', hi'', (hput.trans hwritten).imp fun key hkey => ?_⟩
    rcases hkey with ⟨hfirst, hsheet, htext⟩ | ⟨hfirst, w', hw', hsheet, htext⟩
    · exact ⟨hfirst, w, List.mem_cons_self, hsheet, htext⟩
    · rw [Memory.Book.sheetNames_eq, Memory.Book.shape_put, ← Memory.Book.sheetNames_eq] at hfirst
      rw [hput.name] at hfirst hsheet
      exact ⟨hfirst, w', List.mem_cons_of_mem _ hw', hsheet, htext⟩

/-- **Filling performs exactly its plan.**  When the merged ranges of every sheet can be read and
    are apart, filling a workbook succeeds when the plan has no violation, and else fails with the
    first.  Every cell then has the content of the last write to it before that violation, or the
    content it had.  The names of the sheets, their order and the merged ranges are as they were,
    and so is everything else in the sheets. -/
theorem fill_performs_plan (b : Memory.Book) (hb : b.WellMerged) (rules : List Rule)
    (payload : Value) :
    let steps := plan b payload rules
    let writes := writesBefore steps
    let after := (fill rules payload b).2
    ((fill rules payload b).1 = match (violations steps).head? with
      | none => .ok ()
      | some e => .error e) ∧
    (∀ name c, after.read name c = match lastWrite? writes name c with
      | some w => .ok (some w.value)
      | none => b.read name c) ∧
    after.shape = b.shape ∧
    ∀ i (p : Memory.Page), b.pages[i]? = some p → ∃ p', after.pages[i]? = some p' ∧
      p.Besides (fun key => p.name ∉ (Workbook.sheetNames b).take i ∧
        ∃ w ∈ writes, w.sheet = p.name ∧ w.cell.text = key) p' := by
  intro steps writes after
  have hfill : fill rules payload b = replay steps b := fill_eq_replay hb rules payload
  have hafter : after = written writes b := (congrArg Prod.snd hfill).trans (replay_snd steps b)
  refine ⟨(congrArg Prod.fst hfill).trans (replay_fst steps b), fun name c => ?_, ?_,
    fun i p hi => ?_⟩
  · rw [hafter]
    exact read_written (fun w hw => sheet_of_mem_writesBefore hw) name c
  · exact (congrArg (fun r => r.2.shape) hfill).trans (shape_replay steps b)
  · rw [hafter]
    exact besides_written writes hi

/-! ## A sample -/

/-- A workbook of one sheet with two merged ranges. -/
def sampleBook : Memory.Book := ⟨[⟨"Note", [("A1", .text "old")], ["B2:D2", "A3:A4"]⟩]⟩

/-- Rules that write to a merged cell, to the same cell again and to a cell for each row, and then
    lack a value. -/
def sampleRules : List Rule :=
  [⟨"Note", "C2", "reference", "", true, 1⟩, ⟨"Note", "B2", "reference", "upper", true, 2⟩,
    ⟨"Note", "A6", "items[].name", "", false, 3⟩, ⟨"Note", "A5", "absent", "", true, 4⟩,
    ⟨"Note", "A1", "reference", "", true, 5⟩]

/-- A payload of a field and two rows, one of them without a name. -/
def samplePayload : Value :=
  .record [("items", .list [.record [("name", .ofText "Gloves")], .empty]),
    ("reference", .ofText "shp-1")]

theorem wellMerged_sample : sampleBook.WellMerged := by
  intro p hp
  obtain rfl := List.mem_singleton.1 hp
  refine ⟨[⟨⟨2, 2⟩, ⟨4, 2⟩⟩, ⟨⟨1, 3⟩, ⟨1, 4⟩⟩], by cbv, ?_⟩
  refine List.pairwise_pair.2 fun c hc => ?_
  simp only [Range.contains, Bool.and_eq_true, decide_eq_true_eq] at hc
  omega

theorem sample_fill : sampleBook.WellMerged ∧
    (fill sampleRules samplePayload sampleBook).1 =
      .error (.missingRequired "Note" "A5" "absent") ∧
    ((fill sampleRules samplePayload sampleBook).2.read "Note" ⟨2, 2⟩).map
      (·.bind CellValue.asText) = .ok (some "SHP-1") ∧
    ((fill sampleRules samplePayload sampleBook).2.read "Note" ⟨1, 6⟩).map
      (·.bind CellValue.asText) = .ok (some "Gloves") ∧
    ((fill sampleRules samplePayload sampleBook).2.read "Note" ⟨1, 7⟩).map
      (·.bind CellValue.asText) = .ok (some "") ∧
    (fill sampleRules samplePayload sampleBook).2.read "Note" ⟨1, 1⟩ =
      .ok (some (.text "old")) := by
  have hviolations : violations (plan sampleBook samplePayload sampleRules) =
      [.missingRequired "Note" "A5" "absent"] := by
    decide +kernel
  have hnone : (lastWrite? (writesBefore (plan sampleBook samplePayload sampleRules)) "Note"
      ⟨1, 1⟩).isNone := by
    decide +kernel
  obtain ⟨hresult, hread, -⟩ :=
    fill_performs_plan sampleBook wellMerged_sample sampleRules samplePayload
  have hshown : ∀ c text, (lastWrite? (writesBefore (plan sampleBook samplePayload sampleRules))
      "Note" c).map (·.value.asText) = some (some text) →
        ((fill sampleRules samplePayload sampleBook).2.read "Note" c).map
          (·.bind CellValue.asText) = .ok (some text) := by
    intro c text hlast
    obtain ⟨w, hw, hvalue⟩ := Option.map_eq_some_iff.1 hlast
    rw [hread, hw]
    exact congrArg Except.ok hvalue
  refine ⟨wellMerged_sample, ?_, hshown _ _ (by decide +kernel), hshown _ _ (by decide +kernel),
    hshown _ _ (by decide +kernel), ?_⟩
  · rw [hresult, hviolations]
    rfl
  · rw [hread, Option.isNone_iff_eq_none.1 hnone]
    cbv

end Waybill.Mapping
