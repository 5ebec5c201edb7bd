/-
  Lists of rules: what normalizing and checking make of them.

  * `Rule.IsNormal`: normalizing changes nothing, whatever the place;
  * `Rule.spelling` and `Rule.target` are a rule's cell as it is written and as it is read;
  * `Settled`: what is true of the live rules of a document and of the rules of a version.

  Statements: `checkRules_eq_ok` (which rules an edit may have), `settled_inSequence` (rules that
  are let in are settled once they are normalized and put in order), `Settled.normalizedAll` and
  `Settled.inSequence` (settled rules come out of that as they went in).
-/
import Waybill.History.Edit
import Waybill.Proofs.Store.Tables
import Waybill.Proofs.Text.Trim

namespace Waybill.Mapping

open Waybill.Sheet

/-! ## Normal rules -/

namespace Rule

/-- The rule is trimmed and has a place of its own. -/
def IsNormal (r : Rule) : Prop :=
  ∀ place, r.normalized place = r

theorem isNormal_normalized (r : Rule) {place : Nat} (h : place ≠ 0) :
    (r.normalized place).IsNormal := by
  intro other
  have hseq : (r.normalized place).sequence ≠ 0 := by
    simp only [normalized]; split <;> assumption
  rw [normalized, if_neg hseq]
  simp [normalized]

/-- The cell as it is written. -/
def spelling (r : Rule) : String × String := (r.worksheet, r.cell)

/-- The cell as it is read, if it is one. -/
def target (r : Rule) : String × Option Cell := (r.worksheet, Cell.ofText? r.cell)

theorem target_of_spelling {a b : Rule} (h : a.spelling = b.spelling) : a.target = b.target := by
  obtain ⟨hw, hc⟩ := Prod.mk.injEq .. ▸ h
  rw [target, target, hw, hc]

theorem isNormal_of_mem_normalizedFrom {place : Nat} (hp : place ≠ 0) {rs : List Rule} {r : Rule}
    (h : r ∈ normalizedFrom place rs) : r.IsNormal := by
  induction rs generalizing place with
  | nil => simp [normalizedFrom] at h
  | cons s rs ih =>
    rcases List.mem_cons.1 h with rfl | h
    · exact isNormal_normalized s hp
    · exact ih (Nat.succ_ne_zero _) h

theorem normalizedFrom_of_isNormal {rs : List Rule} (h : ∀ r ∈ rs, r.IsNormal) (place : Nat) :
    normalizedFrom place rs = rs := by
  induction rs generalizing place with
  | nil => rfl
  | cons r rs ih =>
    rw [normalizedFrom, h r List.mem_cons_self place,
      ih fun s hs => h s (List.mem_cons_of_mem _ hs)]

theorem isNormal_of_mem_normalizedAll {rs : List Rule} {r : Rule} (h : r ∈ normalizedAll rs) :
    r.IsNormal := isNormal_of_mem_normalizedFrom Nat.one_ne_zero h

end Rule

end Waybill.Mapping

namespace Waybill.History

open Waybill.Mapping Waybill.Sheet

/-! ## Checked rules -/

theorem checkFrom_eq_ok {seen : List (String × Cell)} {rs : List Rule} :
    checkFrom seen rs = .ok () ↔
      (∀ r ∈ rs, (Cell.ofText? r.cell).isSome) ∧
        (∀ r ∈ rs, ∀ p ∈ seen, r.target ≠ (p.1, some p.2)) ∧
          rs.Pairwise fun a b => a.target ≠ b.target := by
  induction rs generalizing seen with
  | nil => simp [checkFrom]
  | cons r rs ih =>
    rw [checkFrom]
    cases hc : Cell.ofText? r.cell with
    | none => simp [hc]
    | some cell =>
      have ht : r.target = (r.worksheet, some cell) := by rw [Rule.target, hc]
      by_cases hs : seen.contains (r.worksheet, cell)
      · have hmem : (r.worksheet, cell) ∈ seen := by simpa using hs
        simp only [hs, ↓reduceIte, reduceCtorEq, false_iff]
        rintro ⟨-, hseen, -⟩
        exact hseen r List.mem_cons_self _ hmem ht
      · have hmem : (r.worksheet, cell) ∉ seen := by simpa using hs
        simp only [hs, Bool.false_eq_true, ↓reduceIte, ih, List.forall_mem_cons, hc,
          Option.isSome_some, true_and, List.pairwise_cons, ht]
        constructor
        · rintro ⟨hcells, hseen, hp⟩
          exact ⟨hcells, ⟨fun p hp e => hmem (by simp_all), fun q hq => (hseen q hq).2⟩,
            fun q hq e => (hseen q hq).1 e.symm, hp⟩
        · rintro ⟨hcells, ⟨-, hseen⟩, hnew, hp⟩
          exact ⟨hcells, fun q hq => ⟨fun e => hnew q hq e.symm, hseen q hq⟩, hp⟩

/-- Rules are let in if every cell is one and no two of them are the same. -/
theorem checkRules_eq_ok {rules : List Rule} :
    checkRules rules = .ok () ↔
      (∀ r ∈ Rule.normalizedAll rules, (Cell.ofText? r.cell).isSome) ∧
        (Rule.normalizedAll rules).Pairwise fun a b => a.target ≠ b.target := by
  simp [checkRules, checkFrom_eq_ok]

/-! ## Settled rules -/

/-- Rules as a document has them: normal, on cells of their own, and in their order. -/
structure Settled (rs : List Rule) : Prop where
  normal : ∀ r ∈ rs, r.IsNormal
  cells : ∀ r ∈ rs, (Cell.ofText? r.cell).isSome
  apart : rs.Pairwise fun a b => a.target ≠ b.target
  ordered : rs.Pairwise fun a b => a.sequence ≤ b.sequence

theorem settled_nil : Settled [] where
  normal := by simp
  cells := by simp
  apart := .nil
  ordered := .nil

theorem settled_inSequence {rules : List Rule} (h : checkRules rules = .ok ()) :
    Settled (inSequence (·.sequence) (Rule.normalizedAll rules)) := by
  obtain ⟨hcells, hp⟩ := checkRules_eq_ok.1 h
  have hperm : (inSequence (fun r : Rule => r.sequence) (Rule.normalizedAll rules)).Perm _ :=
    inSequence_perm _
  exact {
    normal := fun r hr => Rule.isNormal_of_mem_normalizedAll (hperm.mem_iff.1 hr)
    cells := fun r hr => hcells r (hperm.mem_iff.1 hr)
    apart := (hperm.pairwise_iff fun h => h.symm).2 hp
    ordered := inSequence_pairwise _ }

/-- Only rules that are let in are settled once they are normalized and put in order. -/
theorem checkRules_of_settled {rules : List Rule}
    (h : Settled (inSequence (·.sequence) (Rule.normalizedAll rules))) :
    checkRules rules = .ok () := by
  have hperm : (inSequence (fun r : Rule => r.sequence) (Rule.normalizedAll rules)).Perm _ :=
    inSequence_perm _
  exact checkRules_eq_ok.2 ⟨fun r hr => h.cells r (hperm.mem_iff.2 hr),
    (hperm.pairwise_iff fun h => h.symm).1 h.apart⟩

namespace Settled

variable {rs : List Rule}

theorem normalizedAll (h : Settled rs) : Rule.normalizedAll rs = rs :=
  Rule.normalizedFrom_of_isNormal h.normal 1

theorem inSequence (h : Settled rs) : Waybill.inSequence (fun r : Rule => r.sequence) rs = rs :=
  inSequence_of_pairwise h.ordered

/-- Settled rules are let in again. -/
theorem checkRules (h : Settled rs) : History.checkRules rs = .ok () := by
  rw [checkRules_eq_ok, h.normalizedAll]
  exact ⟨h.cells, h.apart⟩

end Settled

/-- Rules on cells of their own are spelled apart. -/
theorem spelling_ne_of_target_ne {rs : List Rule}
    (h : rs.Pairwise fun a b : Rule => a.target ≠ b.target) :
    rs.Pairwise fun a b => a.spelling ≠ b.spelling :=
  h.imp fun h e => h (Rule.target_of_spelling e)

end Waybill.History
