/-
  The order of rules.

  What a rule plans depends on the names and merged ranges of the sheets only, and no write changes
  these.  So no rule has a part in whether another one succeeds, and rules that succeed and address
  different cells may be applied in any order.

  * `addressed` are the cells that a rule addresses in the end;
  * `yielded` is the workbook that filling yields.

  Statements: `fill_eq_ok_iff` (filling succeeds when no rule plans a violation), `places_plan`
  (rules write to the cells that they address) and `fill_in_any_order`.
-/
import Waybill.Proofs.Mapping.Plan

namespace Waybill.Mapping

open Waybill.Payload Waybill.Sheet

/-- The cells that a rule addresses in the end: its own cell, or as many below each other as a
    repeating rule has rows, each sent to the anchor of its merged range. -/
def addressed (b : Memory.Book) (payload : Value) (rule : Rule) : List (String × Cell) :=
  match Cell.ofText? rule.cell with
  | none => []
  | some first =>
    let rows := if isRepeating rule.source then (payload.rows rule.source).length else 1
    (List.range rows).map fun i =>
      (rule.worksheet, redirected (b.ranges rule.worksheet) ⟨first.column, first.row + i⟩)

/-- The workbook that filling yields; one whose filling ends early is discarded. -/
def yielded (rules : List Rule) (payload : Value) (b : Memory.Book) : Option Memory.Book :=
  match fill rules payload b with
  | (.ok _, b) => some b
  | (.error _, _) => none

/-- Where a write goes. -/
def Write.place (w : Write) : String × Cell :=
  (w.sheet, w.cell)

/-- The write of a step, if it is one. -/
def Planned.write? : Planned → Option Write
  | .write w => some w
  | .violation _ => none

variable {b : Memory.Book} {payload : Value} {rule : Rule} {rules : List Rule}

/-! ## Plans without violations -/

theorem violations_flatMap_eq_nil_iff {α : Type} {f : α → List Planned} {as : List α} :
    violations (as.flatMap f) = [] ↔ ∀ a ∈ as, violations (f a) = [] := by
  rw [violations, List.filterMap_flatMap, List.flatMap_eq_nil_iff]
  rfl

theorem violations_map_eq_nil_iff {α : Type} {f : α → Planned} {as : List α} :
    violations (as.map f) = [] ↔ ∀ a ∈ as, ∃ w, f a = .write w := by
  rw [List.map_eq_flatMap, violations_flatMap_eq_nil_iff]
  refine forall₂_congr fun a _ => ?_
  cases f a with
  | write w => exact ⟨fun _ => ⟨w, rfl⟩, fun _ => rfl⟩
  | violation e => exact ⟨fun h => (List.cons_ne_nil _ _ h).elim, fun ⟨_, h⟩ => by cases h⟩

theorem violations_plan_eq_nil_iff :
    violations (plan b payload rules) = [] ↔
      ∀ rule ∈ rules, violations (planRule b payload rule) = [] :=
  violations_flatMap_eq_nil_iff

/-- Without violations every write is done. -/
theorem writesBefore_eq_filterMap {steps : List Planned} (h : violations steps = []) :
    writesBefore steps = steps.filterMap Planned.write? := by
  induction steps with
  | nil => rfl
  | cons step steps ih =>
    cases step with
    | write w => exact congrArg (w :: ·) (ih h)
    | violation e => cases h

/-- Filling succeeds when no rule, taken by itself, plans a violation. -/
theorem fill_eq_ok_iff (hb : b.WellMerged) (rules : List Rule) :
    (fill rules payload b).1 = .ok () ↔
      ∀ rule ∈ rules, violations (planRule b payload rule) = [] := by
  rw [fill_eq_replay hb, replay_fst, ← violations_plan_eq_nil_iff]
  cases violations (plan b payload rules) <;> simp

theorem yielded_eq_some_iff {after : Memory.Book} : yielded rules payload b = some after ↔
    (fill rules payload b).1 = .ok () ∧ (fill rules payload b).2 = after := by
  unfold yielded
  rcases fill rules payload b with ⟨_ | _, _⟩ <;> simp

/-! ## Where rules write -/

theorem place_of_planValue {ranges : List Range} {target : Cell} {value : Option Value} {w : Write}
    (h : planValue rule ranges target value = .write w) :
    w.place = (rule.worksheet, redirected ranges target) := by
  rw [planValue_eq] at h
  split at h
  · cases h
    rfl
  · cases h

theorem place_of_planRow {ranges : List Range} {first : Cell} {row : Option Value × Nat} {w : Write}
    (h : planRow rule ranges first row = .write w) :
    w.place = (rule.worksheet, redirected ranges ⟨first.column, first.row + row.2⟩) := by
  unfold planRow at h
  split at h
  · exact place_of_planValue h
  · cases h

/-- A rule without violations writes to the cells that it addresses. -/
theorem places_planRule (h : violations (planRule b payload rule) = []) :
    ((planRule b payload rule).filterMap Planned.write?).map Write.place =
      addressed b payload rule := by
  unfold planRule at h ⊢
  unfold addressed
  by_cases hname : rule.worksheet ∈ Workbook.sheetNames b
  swap
  · simp [hname, violations] at h
  rw [if_neg (not_not_intro hname)] at h ⊢
  cases hcell : Cell.ofText? rule.cell with
  | none => simp [hcell, violations] at h
  | some first =>
    simp only [hcell] at h ⊢
    by_cases hrepeating : isRepeating rule.source
    · simp only [hrepeating, ↓reduceIte] at h ⊢
      by_cases hrows : rule.required = true ∧ payload.rows rule.source = []
      · simp [hrows, violations] at h
      rw [if_neg hrows] at h ⊢
      -- the rows are numbered as the cells below each other are
      rw [List.filterMap_map, List.map_filterMap, List.range_eq_range', ← List.zipIdx_map_snd,
        List.map_map, ← List.filterMap_eq_map]
      refine List.filterMap_congr fun row hrow => ?_
      obtain ⟨w, hw⟩ := violations_map_eq_nil_iff.1 h row hrow
      simp [hw, Planned.write?, place_of_planRow hw]
    · simp only [hrepeating] at h ⊢
      cases hstep : planValue rule (b.ranges rule.worksheet) first
          (payload.resolve rule.source) with
      | violation e => simp [hstep, violations] at h
      | write w => simp [Planned.write?, place_of_planValue hstep]

theorem places_plan (h : ∀ rule ∈ rules, violations (planRule b payload rule) = []) :
    (writesBefore (plan b payload rules)).map Write.place =
      rules.flatMap (addressed b payload) := by
  rw [writesBefore_eq_filterMap (violations_plan_eq_nil_iff.2 h), plan, List.filterMap_flatMap,
    List.map_flatMap]
  exact List.flatMap_congr fun rule hrule => places_planRule (h rule hrule)

/-! ## Any order -/

/-- Writes to different cells are done in any order. -/
theorem written_perm {writes writes' : List Write} (hperm : writes'.Perm writes)
    (h : (writes.map Write.place).Nodup) : written writes' b = written writes b := by
  refine (hperm.symm.foldl_eq' (fun w hw w' hw' b => ?_) b).symm
  by_cases heq : w = w'
  · rw [heq]
  · exact b.put_comm (fun hplace => heq (List.inj_on_of_nodup_map h hw hw' hplace)) ..

theorem perm_writesBefore {rules' : List Rule} (hperm : rules'.Perm rules)
    (h : ∀ rule ∈ rules, violations (planRule b payload rule) = []) :
    (writesBefore (plan b payload rules')).Perm (writesBefore (plan b payload rules)) := by
  have h' : ∀ rule ∈ rules', violations (planRule b payload rule) = [] :=
    fun rule hrule => h rule (hperm.mem_iff.1 hrule)
  rw [writesBefore_eq_filterMap (violations_plan_eq_nil_iff.2 h),
    writesBefore_eq_filterMap (violations_plan_eq_nil_iff.2 h')]
  exact (hperm.flatMap_right (planRule b payload)).filterMap Planned.write?

/-- **The order of rules does not matter.**  When the merged ranges of every sheet can be read and
    are apart, filling succeeds exactly when each rule by itself succeeds on the untouched
    workbook.  So it does in every order of the rules or in none; and when the cells addressed in
    the end are different for all rules and rows, every order yields the same workbook. -/
theorem fill_in_any_order (b : Memory.Book) (hb : b.WellMerged) (payload : Value)
    (rules : List Rule) :
    ((fill rules payload b).1 = .ok () ↔ ∀ rule ∈ rules, (fill [rule] payload b).1 = .ok ()) ∧
    ∀ rules', rules'.Perm rules →
      ((fill rules' payload b).1 = .ok () ↔ (fill rules payload b).1 = .ok ()) ∧
      ((rules.flatMap (addressed b payload)).Nodup →
        yielded rules' payload b = yielded rules payload b) := by
  have hsucceeds {rules' : List Rule} (hperm : rules'.Perm rules) :
      (fill rules' payload b).1 = .ok () ↔ (fill rules payload b).1 = .ok () := by
    simp only [fill_eq_ok_iff hb, hperm.mem_iff]
  refine ⟨?_, fun rules' hperm => ⟨hsucceeds hperm, fun hdistinct => ?_⟩⟩
  · simp only [fill_eq_ok_iff hb, List.mem_singleton, forall_eq]
  · refine Option.ext fun after => ?_
    rw [yielded_eq_some_iff, yielded_eq_some_iff, hsucceeds hperm]
    refine and_congr_right fun hok => ?_
    have hrules := (fill_eq_ok_iff hb rules).1 hok
    rw [fill_eq_replay hb, fill_eq_replay hb, replay_snd, replay_snd,
      written_perm (perm_writesBefore hperm hrules) (places_plan hrules ▸ hdistinct)]

/-- A rule for a merged cell, and one for the rows below it. -/
def orderedRules : List Rule :=
  [⟨"Note", "C2", "reference", "upper", true, 1⟩, ⟨"Note", "B5", "items[].name", "", false, 2⟩]

theorem sample_fill_in_any_order : sampleBook.WellMerged ∧
    (orderedRules.flatMap (addressed sampleBook samplePayload)).Nodup ∧
    orderedRules.reverse.Perm orderedRules ∧
    (fill orderedRules.reverse samplePayload sampleBook).1 = .ok () ∧
    yielded orderedRules.reverse samplePayload sampleBook =
      yielded orderedRules samplePayload sampleBook := by
  have hdistinct : (orderedRules.flatMap (addressed sampleBook samplePayload)).Nodup := by
    decide +kernel
  have hperm : orderedRules.reverse.Perm orderedRules := List.reverse_perm orderedRules
  obtain ⟨heach, horders⟩ :=
    fill_in_any_order sampleBook wellMerged_sample samplePayload orderedRules
  have hok : ∀ rule ∈ orderedRules, (fill [rule] samplePayload sampleBook).1 = .ok () := by
    simp only [fill_eq_ok_iff wellMerged_sample, List.mem_singleton, forall_eq]
    decide +kernel
  obtain ⟨hsucceeds, hyields⟩ := horders orderedRules.reverse hperm
  exact ⟨wellMerged_sample, hdistinct, hperm, hsucceeds.2 (heach.2 hok), hyields hdistinct⟩

end Waybill.Mapping
