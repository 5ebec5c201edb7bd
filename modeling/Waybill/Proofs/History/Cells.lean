/-
  One rule for each cell.

  Two rules of a document may be spelled apart and yet be for one cell.  What an edit is checked for
  is the cell as it is read, so the spelling that the table of rules is keyed by never decides.

  * `Rule.aim` is the cell that a rule is for once it is normalized;
  * `Rule.Apart`: every rule of a list is for a cell, and no two for the same one;
  * `Offends` says how a rule offends after others, and with which error; `FirstOffence` finds it.

  Statements: `checkRules_eq_ok_iff_apart` and `firstOffence_of_checkRules` (which rules are let in,
  and which error the others meet), `one_rule_for_each_cell` (the rules of every document are for
  cells of their own, and an edit fails only with its first offence).
-/
import Waybill.Proofs.Operation

namespace Waybill.Mapping.Rule

open Waybill.Sheet

/-! ## Rules and their cells -/

/-- The worksheet and the cell that a rule is for once it is normalized. -/
def aim (r : Rule) : String × Option Cell :=
  (Text.trim r.worksheet, Cell.ofText? (Text.trim r.cell))

/-- Rules that are all for cells, and no two of them for one. -/
def Apart (rules : List Rule) : Prop :=
  (∀ r ∈ rules, r.aim.2.isSome) ∧ rules.Pairwise fun a b => a.aim ≠ b.aim

theorem target_normalized (r : Rule) (place : Nat) : (r.normalized place).target = r.aim := rfl

theorem ofText?_normalized (r : Rule) (place : Nat) :
    Cell.ofText? (r.normalized place).cell = r.aim.2 := by
  rw [← target_normalized r place, target]

theorem map_target_normalizedFrom (place : Nat) (rules : List Rule) :
    (normalizedFrom place rules).map target = rules.map aim := by
  induction rules generalizing place with
  | nil => rfl
  | cons r rs ih => exact congrArg (r.aim :: ·) (ih (place + 1))

theorem apart_concat {before : List Rule} {r : Rule} (h : Apart before) (hcell : r.aim.2.isSome)
    (hnew : ∀ q ∈ before, q.aim ≠ r.aim) : Apart (before ++ [r]) := by
  refine ⟨fun q hq => ?_, List.pairwise_append.2 ⟨h.2, List.pairwise_singleton _ _, ?_⟩⟩
  · rcases List.mem_append.1 hq with hq | hq
    · exact h.1 q hq
    · rwa [List.mem_singleton.1 hq]
  · intro q hq r' hr
    rw [List.mem_singleton.1 hr]
    exact hnew q hq

end Waybill.Mapping.Rule

namespace Waybill.History

open Waybill.Mapping Waybill.Sheet Waybill.Store Waybill.Generation

/-! ## Rules that are let in -/

/-- Rules are let in exactly when they are for cells of their own. -/
theorem checkRules_eq_ok_iff_apart {rules : List Rule} :
    checkRules rules = .ok () ↔ Rule.Apart rules := by
  have htargets : (Rule.normalizedAll rules).map Rule.target = rules.map Rule.aim :=
    Rule.map_target_normalizedFrom 1 rules
  have hcells : (∀ r ∈ Rule.normalizedAll rules, (Cell.ofText? r.cell).isSome) ↔
      ∀ r ∈ rules, r.aim.2.isSome := by
    have h : (∀ t ∈ (Rule.normalizedAll rules).map Rule.target, t.2.isSome) ↔
        ∀ t ∈ rules.map Rule.aim, t.2.isSome := by rw [htargets]
    rwa [List.forall_mem_map, List.forall_mem_map] at h
  have hpairs : ((Rule.normalizedAll rules).Pairwise fun a b => a.target ≠ b.target) ↔
      rules.Pairwise fun a b => a.aim ≠ b.aim := by
    rw [← List.pairwise_map (R := (· ≠ ·)), htargets, List.pairwise_map]
  rw [checkRules_eq_ok, hcells, hpairs, Rule.Apart]

/-! ## The first offence -/

/-- A rule that may not stand after others, and the error that says so: its cell is none, or it is
    the cell of one of them. -/
inductive Offends (before : List Rule) (r : Rule) : HistoryError → Prop
  | noCell (h : r.aim.2 = none) :
    Offends before r (.invalidCell (Text.trim r.worksheet) (Text.trim r.cell))
  | taken {cell : Cell} (h : r.aim.2 = some cell) {q : Rule} (hq : q ∈ before)
    (same : q.aim = r.aim) : Offends before r (.duplicateRule (Text.trim r.worksheet) cell.text)

/-- The error of the first rule that offends. -/
def FirstOffence (rules : List Rule) (e : HistoryError) : Prop :=
  ∃ before r after, rules = before ++ r :: after ∧ Rule.Apart before ∧ Offends before r e

theorem Offends.ne_store {before : List Rule} {r : Rule} {e : HistoryError}
    (h : Offends before r e) (error : StoreError) : e ≠ .store error := by
  cases h <;> simp

/-- What the check has seen are the cells of the rules before. -/
theorem firstOffence_of_checkFrom {before rs : List Rule} {place : Nat}
    {seen : List (String × Cell)} {e : HistoryError}
    (hseen : ∀ t cell, (t, cell) ∈ seen ↔ ∃ q ∈ before, q.aim = (t, some cell))
    (hbefore : Rule.Apart before)
    (h : checkFrom seen (Rule.normalizedFrom place rs) = .error e) :
    FirstOffence (before ++ rs) e := by
  induction rs generalizing before place seen with
  | nil => simp [Rule.normalizedFrom, checkFrom] at h
  | cons r rs ih =>
    rw [Rule.normalizedFrom, checkFrom, Rule.ofText?_normalized] at h
    cases hc : r.aim.2 with
    | none =>
      simp only [hc, Except.error.injEq] at h
      subst h
      exact ⟨before, r, rs, rfl, hbefore, .noCell hc⟩
    | some cell =>
      simp only [hc] at h
      have haim : r.aim = (Text.trim r.worksheet, some cell) := Prod.ext rfl hc
      split at h
      · next hmem =>
        obtain ⟨q, hq, hqaim⟩ := (hseen _ _).1 (by simpa using hmem)
        rw [Except.error.injEq] at h
        subst h
        exact ⟨before, r, rs, rfl, hbefore, .taken hc hq (hqaim.trans haim.symm)⟩
      · next hmem =>
        have hnew : ∀ q ∈ before, q.aim ≠ r.aim := fun q hq hqr =>
          hmem (by simpa [Rule.normalized] using (hseen _ _).2 ⟨q, hq, hqr.trans haim⟩)
        have hseen' : ∀ t c, (t, c) ∈ ((r.normalized place).worksheet, cell) :: seen ↔
            ∃ q ∈ before ++ [r], q.aim = (t, some c) := by
          intro t c
          rw [List.mem_cons, hseen]
          simp only [List.mem_append, List.mem_singleton]
          constructor
          · rintro (hr | ⟨q, hq, hqaim⟩)
            · obtain ⟨rfl, rfl⟩ := Prod.mk.injEq .. ▸ hr
              exact ⟨r, Or.inr rfl, haim⟩
            · exact ⟨q, Or.inl hq, hqaim⟩
          · rintro ⟨q, hq | rfl, hqaim⟩
            · exact Or.inr ⟨q, hq, hqaim⟩
            · rw [haim, Prod.mk.injEq, Option.some.injEq] at hqaim
              exact Or.inl (Prod.ext hqaim.1.symm hqaim.2.symm)
        have := ih hseen' (Rule.apart_concat hbefore (by simp [haim]) hnew) h
        rwa [List.append_assoc, List.singleton_append] at this

theorem firstOffence_of_checkRules {rules : List Rule} {e : HistoryError}
    (h : checkRules rules = .error e) : FirstOffence rules e := by
  have hoffence : FirstOffence ([] ++ rules) e :=
    firstOffence_of_checkFrom (by simp) (by simp [Rule.Apart]) h
  rwa [List.nil_append] at hoffence

/-! ## Edits -/

variable {s : Store} {d : Id} {edit : Edit} {signature : Signature} {note : String}

theorem checkEdit_cases (edit : Edit) :
    (∀ rules ∈ edit.rules, checkRules rules = .ok ()) ∨
      ∃ rules ∈ edit.rules, ∃ e, checkRules rules = .error e ∧ checkEdit edit = .error e := by
  obtain ⟨t, _ | rules⟩ := edit
  · exact Or.inl (by simp)
  · cases h : checkRules rules with
    | ok => exact Or.inl (by simp [h])
    | error e => exact Or.inr ⟨rules, rfl, e, h, h⟩

/-- An edit that is refused fails with the error of the check. -/
theorem saveEdit_of_checkEdit {e : HistoryError} (h : checkEdit edit = .error e) :
    saveEdit d edit signature note s = .error e := by
  rw [saveEdit_eq, Action.lift_bind, h]

/-- An edit of a document that is there is recorded, or meets its first offence. -/
theorem saveEdit_cases (hs : s.Recorded) (hd : (s.document? d).isSome) :
    ((∀ rules ∈ edit.rules, Rule.Apart rules) ∧
        ∃ r s', saveEdit d edit signature note s = .ok (r, s')) ∨
      ∃ rules ∈ edit.rules, ∃ e, ¬Rule.Apart rules ∧ FirstOffence rules e ∧
        saveEdit d edit signature note s = .error e := by
  rcases checkEdit_cases edit with hc | ⟨rules, hrules, e, he, hc⟩
  · obtain ⟨r, s', h⟩ := commit_exists hd hc signature .save note
    refine Or.inl ⟨fun rules hr => checkRules_eq_ok_iff_apart.1 (hc rules hr), r, s', ?_⟩
    exact (saveEdit_eq_ok hs.sound).2 h
  · refine Or.inr ⟨rules, hrules, e, ?_, firstOffence_of_checkRules he, saveEdit_of_checkEdit hc⟩
    rw [← checkRules_eq_ok_iff_apart, he]
    simp

/-! ## The rules of a store -/

/-- The live rules of a document are settled, so those of the table are for cells of their own. -/
theorem pairwise_rules (hs : s.Recorded) :
    s.rules.rows.Pairwise fun a b => a.document = b.document → a.rule.target ≠ b.rule.target := by
  have hdoc (d : Id) : (s.rules.rows.filter fun row => row.document == d).Pairwise
      fun a b => a.rule.target ≠ b.rule.target := by
    have h := (hs.rules d).apart
    rw [rulesOf, List.pairwise_map] at h
    exact ((inSequence_perm _).pairwise_iff fun h => h.symm).1 h
  rw [List.pairwise_iff_forall_sublist]
  intro a b hab hdab
  have hsub := hab.filter fun row => row.document == b.document
  rw [List.filter_cons_of_pos (by simpa using hdab), List.filter_cons_of_pos (by simp),
    List.filter_nil] at hsub
  exact List.pairwise_iff_forall_sublist.1 (hdoc b.document) hsub

theorem isSome_cell_of_mem_rules (hs : s.Recorded) {row : RuleRow} (hrow : row ∈ s.rules.rows) :
    (Cell.ofText? row.rule.cell).isSome := by
  refine (hs.rules row.document).cells row.rule (List.mem_map_of_mem ?_)
  exact (inSequence_perm _).mem_iff.2 (List.mem_filter.2 ⟨hrow, by simp⟩)

/-- **Every document has one rule for each cell**, however the cells are spelled, whatever was done
    to the store.  An edit of a document that is there succeeds exactly when its rules are for cells
    of their own; otherwise it fails with its first offence, never with an error of the store, and
    leaves the store as it was. -/
theorem one_rule_for_each_cell (ops : List Operation) :
    let s := (World.start.runAll ops).store
    (∀ row ∈ s.rules.rows, (Cell.ofText? row.rule.cell).isSome) ∧
    (s.rules.rows.Pairwise fun a b => a.document = b.document →
      a.rule.worksheet = b.rule.worksheet →
        Cell.ofText? a.rule.cell ≠ Cell.ofText? b.rule.cell) ∧
    ∀ (d : Id) (edit : Edit) (signature : Signature) (note : String), (s.document? d).isSome →
      ((∃ r s', saveEdit d edit signature note s = .ok (r, s')) ↔
        ∀ rules ∈ edit.rules, Rule.Apart rules) ∧
      ∀ e, saveEdit d edit signature note s = .error e →
        (∃ rules ∈ edit.rules, FirstOffence rules e) ∧ (∀ error, e ≠ .store error) ∧
          s.run (saveEdit d edit signature note) = (.error e, s) := by
  intro s
  have hs : s.Recorded := recorded_runAll ops
  refine ⟨fun row => isSome_cell_of_mem_rules hs, (pairwise_rules hs).imp ?_,
    fun d edit signature note hd => ?_⟩
  · intro a b h hdoc hsheet hcell
    exact h hdoc (Prod.ext hsheet hcell)
  · rcases saveEdit_cases hs hd with ⟨hapart, r, s', h⟩ | ⟨rules, hrules, e, hapart, hfirst, h⟩
    · exact ⟨⟨fun _ => hapart, fun _ => ⟨r, s', h⟩⟩, fun e he => by simp [h] at he⟩
    · refine ⟨⟨?_, fun hall => absurd (hall rules hrules) hapart⟩, fun e' he' => ?_⟩
      · rintro ⟨r, s', h'⟩
        simp [h] at h'
      · obtain rfl : e = e' := Except.error.inj (h.symm.trans he')
        obtain ⟨_, _, _, -, -, hoffends⟩ := id hfirst
        exact ⟨⟨rules, hrules, hfirst⟩, hoffends.ne_store, Action.run_of_error h⟩

/-- Two spellings of one cell, the second with blanks and marks. -/
def sampleClash : Edit where
  template := none
  rules := some [⟨"Sheet1", "b2", "shipment.reference", "", true, 0⟩,
    ⟨" Sheet1", " $B$2 ", "carton.code", "", false, 0⟩]

theorem sample_one_rule_for_each_cell :
    ¬∃ r s', saveEdit 1 sampleClash sampleSignature ""
      (World.start.runAll [sampleImport]).store = .ok (r, s') := by
  obtain ⟨-, -, h⟩ := one_rule_for_each_cell [sampleImport]
  rw [(h 1 sampleClash sampleSignature "" (by rw [sample_document]; rfl)).1]
  intro hall
  have hapart := (hall _ rfl).2
  rw [List.pairwise_cons] at hapart
  refine hapart.1 _ List.mem_cons_self ?_
  cbv

end Waybill.History
