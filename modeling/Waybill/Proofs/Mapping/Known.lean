/-
  Merged ranges are read once for each sheet.

  While a workbook is filled, the merged ranges of a sheet are read when a rule first needs them, and
  known from then on.  As long as writes leave merged ranges as they are, reading them again for
  every rule would come to the same.

  * `Level`: two outcomes with one answer and related states;
  * `Steady` are the kinds of workbook that keep their merged ranges;
  * `applyAnew` applies a rule with merged ranges that are read for it;
  * `Filling.Current`: what is known is what would be read.

  Statements: `level_eachOf` (steps in a row) and `fill_eq_eachOf`.
-/
import Waybill.Mapping.Fill

namespace Waybill.Mapping

open Waybill.Payload Waybill.Sheet

/-! ## Outcomes -/

/-- Two outcomes have one answer, and leave related states. -/
structure Level {ε β γ : Type} (R : β → γ → Prop) (left : Left ε β) (right : Left ε γ) : Prop where
  answer : right.1 = left.1
  state : R left.2 right.2

theorem Level.mono {ε β γ : Type} {R S : β → γ → Prop} {left : Left ε β} {right : Left ε γ}
    (h : Level R left right) (hRS : ∀ b x, R b x → S b x) : Level S left right :=
  ⟨h.answer, hRS _ _ h.state⟩

/-- Steps that respect a relation do so in a row. -/
theorem level_eachOf {ε α β γ : Type} {R : β → γ → Prop} {step : α → β → Left ε β}
    {step' : α → γ → Left ε γ} (hstep : ∀ a b x, R b x → Level R (step a b) (step' a x))
    (as : List α) {b : β} {x : γ} (h : R b x) : Level R (eachOf step as b) (eachOf step' as x) := by
  induction as generalizing b x with
  | nil => exact ⟨rfl, h⟩
  | cons a as ih =>
    obtain ⟨hanswer, hstate⟩ := hstep a b x h
    unfold eachOf
    generalize step a b = left, step' a x = right at hanswer hstate
    obtain ⟨_ | _, b⟩ := left
    all_goals
      obtain ⟨_, x⟩ := right
      obtain rfl := hanswer
    · exact ⟨rfl, hstate⟩
    · exact ih hstate

/-- What each of several steps keeps is kept in a row. -/
theorem eachOf_keeps {ε α β : Type} {P : β → Prop} {step : α → β → Left ε β}
    (hstep : ∀ a b, P b → P (step a b).2) (as : List α) {b : β} (h : P b) :
    P (eachOf step as b).2 := by
  induction as generalizing b with
  | nil => exact h
  | cons a as ih =>
    have ha := hstep a b h
    unfold eachOf
    generalize step a b = left at ha
    obtain ⟨_ | _, b⟩ := left
    · exact ha
    · exact ih ha

/-! ## Merged ranges that stay -/

/-- A write leaves the merged ranges of every sheet as they are. -/
class Steady (β : Type) [Workbook β] : Prop where
  mergedRanges_write {b b' : β} {name : String} {c : Cell} {value : CellValue}
    (h : Workbook.write b name c value = .ok b') (other : String) :
    Workbook.mergedRanges b' other = Workbook.mergedRanges b other

variable {β : Type} [Workbook β]

section
variable [Steady β] (rule : Rule) (ranges : List Range) (other : String) (b : β)

theorem mergedRanges_put (target : Cell) (value : Option Value) :
    Workbook.mergedRanges (put rule ranges target value b).2 other =
      Workbook.mergedRanges b other := by
  unfold put
  cases content rule target value with
  | error e => rfl
  | ok c =>
    dsimp only
    cases hwrite : Workbook.write b rule.worksheet (redirected ranges target) c with
    | error e => rfl
    | ok b' => exact Steady.mergedRanges_write hwrite other

theorem mergedRanges_putRow (first : Cell) (row : Option Value × Nat) :
    Workbook.mergedRanges (putRow rule ranges first row b).2 other =
      Workbook.mergedRanges b other := by
  unfold putRow
  cases first.down row.2 with
  | none => rfl
  | some target => exact mergedRanges_put rule ranges other b target row.1

theorem mergedRanges_applyAt (payload : Value) (first : Cell) :
    Workbook.mergedRanges (applyAt rule payload ranges first b).2 other =
      Workbook.mergedRanges b other := by
  unfold applyAt
  split
  · dsimp only
    split
    · rfl
    · refine eachOf_keeps (P := (Workbook.mergedRanges · other = Workbook.mergedRanges b other))
        (fun row b' h => ?_) _ rfl
      exact (mergedRanges_putRow rule ranges other b' first row).trans h
  · exact mergedRanges_put rule ranges other b first _

end

/-! ## Filling -/

/-- Applies a rule with merged ranges that are read for it. -/
def applyAnew (payload : Value) (rule : Rule) (book : β) : Left FillError β :=
  if !(Workbook.sheetNames book).contains rule.worksheet then
    (.error (.unknownWorksheet rule.worksheet), book)
  else match Cell.ofText? rule.cell with
    | none => (.error (.invalidCell rule.worksheet rule.cell), book)
    | some first =>
      match Workbook.mergedRanges book rule.worksheet with
      | .error e => (.error (.workbook e), book)
      | .ok ranges => applyAt rule payload ranges first book

/-- What is known of merged ranges is what would be read. -/
def Filling.Current (x : Filling β) : Prop :=
  ∀ name ranges, x.known.lookup name = some ranges → Workbook.mergedRanges x.book name = .ok ranges

theorem Filling.Current.of_book {x : Filling β} (hx : x.Current) {b : β}
    (h : ∀ name, Workbook.mergedRanges b name = Workbook.mergedRanges x.book name) :
    Filling.Current { x with book := b } :=
  fun name ranges hknown => (h name).trans (hx name ranges hknown)

/-- Merged ranges that are known, or read to be known. -/
theorem Filling.Current.ranges {x : Filling β} (hx : x.Current) (name : String) :
    (∃ e, x.ranges name = .error e ∧ Workbook.mergedRanges x.book name = .error e) ∨
    ∃ ranges x', x.ranges name = .ok (ranges, x') ∧
      Workbook.mergedRanges x.book name = .ok ranges ∧ x'.book = x.book ∧ x'.Current := by
  unfold Filling.ranges
  cases hknown : x.known.lookup name with
  | some ranges => exact .inr ⟨ranges, x, rfl, hx name ranges hknown, rfl, hx⟩
  | none =>
    cases hread : Workbook.mergedRanges x.book name with
    | error e => exact .inl ⟨e, rfl, rfl⟩
    | ok ranges =>
      refine .inr ⟨ranges, { x with known := (name, ranges) :: x.known }, rfl, rfl, rfl, ?_⟩
      intro other found hfound
      rw [List.lookup_cons] at hfound
      split at hfound
      · next h =>
        obtain rfl := eq_of_beq h
        exact Option.some.inj hfound ▸ hread
      · exact hx other found hfound

variable [Steady β]

theorem level_applyRule (payload : Value) (rule : Rule) {b : β} {x : Filling β}
    (h : x.book = b ∧ x.Current) :
    Level (fun b (x : Filling β) => x.book = b ∧ x.Current) (applyAnew payload rule b)
      (applyRule payload rule x) := by
  obtain ⟨rfl, hx⟩ := h
  unfold applyAnew applyRule
  split
  · exact ⟨rfl, rfl, hx⟩
  · cases Cell.ofText? rule.cell with
    | none => exact ⟨rfl, rfl, hx⟩
    | some first =>
      rcases hx.ranges rule.worksheet with ⟨e, hranges, hread⟩ |
        ⟨ranges, x', hranges, hread, hbook, hx'⟩
      · rw [hranges, hread]
        exact ⟨rfl, rfl, hx⟩
      · rw [hranges, hread, ← hbook]
        refine ⟨rfl, rfl, hx'.of_book fun name => ?_⟩
        exact mergedRanges_applyAt rule ranges name x'.book payload first

/-- **Reading merged ranges once is enough.**  A workbook that keeps its merged ranges is filled as
    if they were read for every rule. -/
theorem fill_eq_eachOf (rules : List Rule) (payload : Value) (b : β) :
    fill rules payload b = eachOf (applyAnew payload) rules b := by
  have hnothing : Filling.Current ⟨b, []⟩ := fun name ranges h => by cases h
  have h := level_eachOf (fun rule _ _ => level_applyRule payload rule) rules
    (x := ⟨b, []⟩) ⟨rfl, hnothing⟩
  exact Prod.ext h.answer h.state.1

end Waybill.Mapping
