/-
  What the tables of a store promise.

  * `Table.Numbered`: the rows stand in the order of their numbers, and none is beyond the last
    number given;
  * `Table.Distinct`: no two rows have the same key;
  * `Table.Refers`: every row names a row of another table.

  Statements: each operation on tables keeps the three, under the condition that its lemma has;
  `Numbered.find?_eq` (a row is found by its number); `inSequence_of_pairwise` and `map_inSequence`
  (rows in their order), `pairwise_mergeSort_of_ordered` and `pairwise_inSequence` (what sorting
  leaves of the order of numbers); `mapM_eq_ok` (rows read one by one).
-/
import Mathlib.Data.List.Forall2
import Mathlib.Data.List.Pairwise
import Waybill.Store.Basic

namespace Waybill.Table

variable {α β κ : Type} {t : Table α} {u : Table β}

/-- What is the only one of its key in a list is found by it. -/
theorem find?_key [BEq κ] [LawfulBEq κ] {key : α → κ} {l : List α} {a : α} (ha : a ∈ l)
    (honly : ∀ b ∈ l, key b = key a → b = a) : (l.find? fun b => key b == key a) = some a := by
  cases hf : l.find? fun b => key b == key a with
  | none => simpa using List.find?_eq_none.1 hf a ha
  | some b =>
    have hb : key b = key a := by simpa using List.find?_some hf
    rw [honly b (List.mem_of_find?_eq_some hf) hb]

theorem mem_push {row : Id → α} {a : α} : a ∈ (t.push row).rows ↔ a ∈ t.rows ∨ a = row t.next := by
  rw [rows_push, List.mem_append, List.mem_singleton]

theorem mem_change {which : α → Bool} {f : α → α} {b : α} :
    b ∈ (t.change which f).rows ↔ ∃ a ∈ t.rows, (if which a then f a else a) = b := List.mem_map

/-- A view that a change leaves alone on the rows it is about, it leaves alone on all. -/
theorem view_change {which : α → Bool} {f : α → α} {view : α → κ}
    (hf : ∀ a, which a → view (f a) = view a) (a : α) :
    view (if which a then f a else a) = view a := by
  split
  · next h => exact hf a h
  · rfl

theorem find?_change {which p : α → Bool} {f : α → α} (hf : ∀ a, which a → p (f a) = p a) :
    (t.change which f).rows.find? p =
      (t.rows.find? p).map fun a => if which a then f a else a := by
  unfold change
  rw [List.find?_map]
  congr 2
  funext a
  exact view_change hf a

/-! ## Numbers -/

/-- The rows stand in the order of their numbers, and the last number given is not below any. -/
structure Numbered (id : α → Id) (t : Table α) : Prop where
  ordered : t.rows.Pairwise fun a b => id a < id b
  bounded : ∀ a ∈ t.rows, id a ≤ t.last

theorem numbered_empty (id : α → Id) : (Table.empty : Table α).Numbered id :=
  ⟨.nil, by simp [Table.empty]⟩

namespace Numbered

variable {id : α → Id}

theorem lt_next (h : t.Numbered id) {a : α} (ha : a ∈ t.rows) : id a < t.next :=
  Int.lt_add_one_of_le (h.bounded a ha)

theorem push (h : t.Numbered id) (row : Id → α) (hid : id (row t.next) = t.next) :
    (t.push row).Numbered id := by
  refine ⟨?_, fun a ha => ?_⟩
  · rw [rows_push, List.pairwise_append]
    refine ⟨h.ordered, List.pairwise_singleton .., fun a ha b hb => ?_⟩
    rw [List.mem_singleton.1 hb, hid]
    exact h.lt_next ha
  · change id a ≤ t.next
    rcases mem_push.1 ha with ha | rfl
    · exact Int.le_of_lt (h.lt_next ha)
    · exact Int.le_of_eq hid

theorem skip (h : t.Numbered id) : t.skip.Numbered id :=
  ⟨h.ordered, fun _ ha => Int.le_of_lt (h.lt_next ha)⟩

theorem change (h : t.Numbered id) {which : α → Bool} {f : α → α}
    (hf : ∀ a, which a → id (f a) = id a) : (t.change which f).Numbered id := by
  refine ⟨?_, fun b hb => ?_⟩
  · unfold Table.change
    rw [List.pairwise_map]
    exact h.ordered.imp fun {a b} hab => by rwa [view_change hf, view_change hf]
  · obtain ⟨a, ha, rfl⟩ := mem_change.1 hb
    exact (view_change hf a).symm ▸ h.bounded a ha

theorem erase (h : t.Numbered id) (which : α → Bool) : (t.erase which).Numbered id :=
  ⟨h.ordered.filter _, fun a ha => h.bounded a (List.mem_filter.1 ha).1⟩

/-- Rows of one number are one row. -/
theorem eq_of_id_eq (h : t.Numbered id) {a b : α} (ha : a ∈ t.rows) (hb : b ∈ t.rows)
    (hab : id a = id b) : a = b := by
  by_contra hne
  have hp : t.rows.Pairwise fun a b => id a ≠ id b := h.ordered.imp fun h => Int.ne_of_lt h
  have : Std.Symm fun a b => id a ≠ id b := ⟨fun _ _ h => h.symm⟩
  exact hp.forall ha hb hne hab

theorem find?_eq (h : t.Numbered id) {a : α} (ha : a ∈ t.rows) :
    (t.rows.find? fun b => id b == id a) = some a :=
  find?_key ha fun _ hb => h.eq_of_id_eq hb ha

/-- A new row is found by the number it was given. -/
theorem find?_push (h : t.Numbered id) (row : Id → α) (hid : id (row t.next) = t.next) :
    ((t.push row).rows.find? fun b => id b == t.next) = some (row t.next) := by
  have := (h.push row hid).find?_eq (mem_push.2 (Or.inr rfl))
  rwa [hid] at this

/-- A change of the row that was added leaves the others alone. -/
theorem rows_change_push (h : t.Numbered id) (row : Id → α) (hid : id (row t.next) = t.next)
    (f : α → α) :
    ((t.push row).change (fun a => id a == t.next) f).rows = t.rows ++ [f (row t.next)] := by
  have hold : t.rows.map (fun a => if id a == t.next then f a else a) = t.rows := by
    have hne : ∀ a ∈ t.rows, (if id a == t.next then f a else a) = a := fun a ha =>
      if_neg (by simpa using Int.ne_of_lt (h.lt_next ha))
    rw [List.map_congr_left hne, List.map_id']
  unfold Table.change
  rw [rows_push, List.map_append, hold, List.map_singleton, if_pos (by simp [hid])]

end Numbered

/-! ## Keys -/

/-- No two rows have the same key. -/
def Distinct (key : α → κ) (t : Table α) : Prop :=
  t.rows.Pairwise fun a b => key a ≠ key b

theorem distinct_empty (key : α → κ) : (Table.empty : Table α).Distinct key := .nil

namespace Distinct

variable {key : α → κ}

theorem push (h : t.Distinct key) (row : Id → α) (hk : ∀ a ∈ t.rows, key a ≠ key (row t.next)) :
    (t.push row).Distinct key := by
  unfold Distinct
  rw [rows_push, List.pairwise_append]
  refine ⟨h, List.pairwise_singleton .., fun a ha b hb => ?_⟩
  rw [List.mem_singleton.1 hb]
  exact hk a ha

theorem change (h : t.Distinct key) {which : α → Bool} {f : α → α}
    (hf : ∀ a, which a → key (f a) = key a) : (t.change which f).Distinct key := by
  unfold Distinct Table.change
  rw [List.pairwise_map]
  exact h.imp fun {a b} hab => by rwa [view_change hf, view_change hf]

theorem erase (h : t.Distinct key) (which : α → Bool) : (t.erase which).Distinct key :=
  h.filter _

/-- Rows of one key are one row. -/
theorem eq_of_key_eq (h : t.Distinct key) {a b : α} (ha : a ∈ t.rows) (hb : b ∈ t.rows)
    (hab : key a = key b) : a = b := by
  by_contra hne
  have : Std.Symm fun a b => key a ≠ key b := ⟨fun _ _ h => h.symm⟩
  exact List.Pairwise.forall h ha hb hne hab

theorem find?_eq [DecidableEq κ] (h : t.Distinct key) {a : α} (ha : a ∈ t.rows) :
    (t.rows.find? fun b => key b = key a) = some a :=
  find?_key ha fun _ hb => h.eq_of_key_eq hb ha

/-- A row is the only one of its key. -/
theorem filter_eq [DecidableEq κ] (h : t.Distinct key) {a : α} (ha : a ∈ t.rows) :
    (t.rows.filter fun b => key b = key a) = [a] := by
  unfold Distinct at h
  generalize t.rows = rows at h ha
  induction rows with
  | nil => cases ha
  | cons b rows ih =>
    obtain ⟨hb, hrows⟩ := List.pairwise_cons.1 h
    rcases List.mem_cons.1 ha with rfl | ha
    · rw [List.filter_cons_of_pos (by simp), List.filter_eq_nil_iff.2]
      exact fun c hc => by simpa using (hb c hc).symm
    · rw [List.filter_cons_of_neg (by simpa using hb a ha), ih hrows ha]

end Distinct

/-! ## References -/

/-- Every row names a row of the other table. -/
def Refers (t : Table α) (ref : α → Id) (u : Table β) (id : β → Id) : Prop :=
  ∀ a ∈ t.rows, ∃ b ∈ u.rows, id b = ref a

theorem refers_empty (ref : α → Id) (u : Table β) (id : β → Id) :
    (Table.empty : Table α).Refers ref u id := by
  simp [Refers, Table.empty]

namespace Refers

variable {ref : α → Id} {id : β → Id}

theorem push (h : t.Refers ref u id) (row : Id → α)
    (hr : ∃ b ∈ u.rows, id b = ref (row t.next)) : (t.push row).Refers ref u id := by
  intro a ha
  rcases mem_push.1 ha with ha | rfl
  exacts [h a ha, hr]

theorem change (h : t.Refers ref u id) {which : α → Bool} {f : α → α}
    (hf : ∀ a, which a → ref (f a) = ref a) : (t.change which f).Refers ref u id := by
  intro b hb
  obtain ⟨a, ha, rfl⟩ := mem_change.1 hb
  rw [view_change hf]
  exact h a ha

theorem erase (h : t.Refers ref u id) (which : α → Bool) : (t.erase which).Refers ref u id :=
  fun a ha => h a (List.mem_filter.1 ha).1

/-- No row names the row that is to come next. -/
theorem ne_next (h : t.Refers ref u id) (hu : u.Numbered id) {a : α} (ha : a ∈ t.rows) :
    ref a ≠ u.next := by
  obtain ⟨b, hb, hab⟩ := h a ha
  exact hab ▸ Int.ne_of_lt (hu.lt_next hb)

/-- More rows to name do no harm. -/
theorem push_right (h : t.Refers ref u id) (row : Id → β) : t.Refers ref (u.push row) id := by
  intro a ha
  obtain ⟨b, hb, hab⟩ := h a ha
  exact ⟨b, mem_push.2 (Or.inl hb), hab⟩

theorem change_right (h : t.Refers ref u id) {which : β → Bool} {f : β → β}
    (hf : ∀ b, which b → id (f b) = id b) : t.Refers ref (u.change which f) id := by
  intro a ha
  obtain ⟨b, hb, hab⟩ := h a ha
  exact ⟨_, mem_change.2 ⟨b, hb, rfl⟩, (view_change hf b).trans hab⟩

end Refers

end Waybill.Table

/-! ## Order -/

namespace Waybill

variable {α β : Type} {sequence : α → Nat}

theorem inSequence_perm (rows : List α) : (inSequence sequence rows).Perm rows :=
  List.mergeSort_perm ..

theorem inSequence_pairwise (rows : List α) :
    (inSequence sequence rows).Pairwise fun a b => sequence a ≤ sequence b := by
  have trans : ∀ a b c : α, decide (sequence a ≤ sequence b) → decide (sequence b ≤ sequence c) →
      decide (sequence a ≤ sequence c) := by
    intro a b c hab hbc
    exact decide_eq_true (Nat.le_trans (of_decide_eq_true hab) (of_decide_eq_true hbc))
  have total : ∀ a b : α, decide (sequence a ≤ sequence b) || decide (sequence b ≤ sequence a) := by
    intro a b
    simpa using Nat.le_total (sequence a) (sequence b)
  exact (List.pairwise_mergeSort trans total rows).imp of_decide_eq_true

theorem inSequence_of_pairwise {rows : List α}
    (h : rows.Pairwise fun a b => sequence a ≤ sequence b) : inSequence sequence rows = rows :=
  List.mergeSort_of_pairwise (h.imp fun h => by simpa using h)

theorem map_inSequence (f : α → β) (sequence : β → Nat) (rows : List α) :
    (inSequence (fun a => sequence (f a)) rows).map f = inSequence sequence (rows.map f) :=
  List.map_mergeSort fun _ _ _ _ => rfl

section
variable {le : α → α → Bool} {l : List α}

/-- What the order does not tell apart keeps its place. -/
theorem filter_mergeSort (htrans : ∀ a b c, le a b → le b c → le a c)
    (htotal : ∀ a b, le a b || le b a) {p : α → Bool} (hp : ∀ a b, p a → p b → le a b) :
    (l.mergeSort le).filter p = l.filter p := by
  have hsorted : (l.filter p).Pairwise fun a b => le a b :=
    List.pairwise_of_forall_mem_list fun a ha b hb =>
      hp a b (List.mem_filter.1 ha).2 (List.mem_filter.1 hb).2
  have hsub := (List.sublist_mergeSort htrans htotal hsorted List.filter_sublist).filter p
  rw [List.filter_filter] at hsub
  simp only [Bool.and_self] at hsub
  exact (hsub.eq_of_length (((List.mergeSort_perm l le).filter p).length_eq).symm).symm

/-- Rows that stand in the order of their numbers are sorted by these in the second place. -/
theorem pairwise_mergeSort_of_ordered (htrans : ∀ a b c, le a b → le b c → le a c)
    (htotal : ∀ a b, le a b || le b a) {id : α → Id} (hl : l.Pairwise fun a b => id a < id b) :
    (l.mergeSort le).Pairwise fun a b => le a b ∧ (le b a → id a < id b) := by
  refine List.pairwise_iff_forall_sublist.2 fun {a b} hab => ?_
  have hle : le a b :=
    List.pairwise_iff_forall_sublist.1 (List.pairwise_mergeSort htrans htotal l) hab
  refine ⟨hle, fun hge => ?_⟩
  have hrefl : le a a := by simpa using htotal a a
  -- both are of one class, of which sorting keeps the order
  have hsub := hab.filter fun x => le a x && le x a
  rw [filter_mergeSort htrans htotal fun x y hx hy => ?_] at hsub
  · have hpair : [a, b].filter (fun x => le a x && le x a) = [a, b] := by simp [hrefl, hle, hge]
    rw [hpair] at hsub
    exact List.pairwise_iff_forall_sublist.1 hl (hsub.trans List.filter_sublist)
  · simp only [Bool.and_eq_true] at hx hy
    exact htrans _ _ _ hx.2 hy.1

end

/-- Rows in their order: by their sequence, and rows of one sequence by their numbers. -/
theorem pairwise_inSequence {id : α → Id} {rows : List α}
    (h : rows.Pairwise fun a b => id a < id b) :
    (inSequence sequence rows).Pairwise fun a b =>
      sequence a < sequence b ∨ sequence a = sequence b ∧ id a < id b := by
  let le (a b : α) : Bool := decide (sequence a ≤ sequence b)
  have htrans : ∀ a b c, le a b → le b c → le a c := fun a b c => by
    simpa [le] using Nat.le_trans
  have htotal : ∀ a b, le a b || le b a := fun a b => by
    simpa [le] using Nat.le_total (sequence a) (sequence b)
  refine (pairwise_mergeSort_of_ordered htrans htotal h).imp fun {a b} hab => ?_
  simp only [le, decide_eq_true_eq] at hab
  obtain ⟨hle, hid⟩ := hab
  exact (Nat.lt_or_eq_of_le hle).imp_right fun heq => ⟨heq, hid (Nat.le_of_eq heq.symm)⟩

/-! ## Reading -/

theorem except_bind_eq_ok {ε : Type} {x : Except ε α} {f : α → Except ε β} {b : β} :
    x >>= f = .ok b ↔ ∃ a, x = .ok a ∧ f a = .ok b := by
  cases x <;> simp [bind, Except.bind]

theorem except_bind_eq_error {ε : Type} {x : Except ε α} {f : α → Except ε β} {e : ε} :
    x >>= f = .error e ↔ x = .error e ∨ ∃ a, x = .ok a ∧ f a = .error e := by
  cases x <;> simp [bind, Except.bind]

theorem mapM_eq_ok {ε : Type} {read : α → Except ε β} {rows : List α} {xs : List β} :
    rows.mapM read = .ok xs ↔ List.Forall₂ (fun row x => read row = .ok x) rows xs := by
  induction rows generalizing xs with
  | nil => cases xs <;> simp [pure, Except.pure]
  | cons row rows ih =>
    rw [List.mapM_cons]
    cases hrow : read row with
    | error e => cases xs <;> simp [bind, Except.bind, hrow]
    | ok x =>
      cases hrows : rows.mapM read with
      | error e => cases xs <;> simp [bind, Except.bind, hrow, ← ih, hrows]
      | ok ys => cases xs <;> simp [bind, Except.bind, pure, Except.pure, hrow, ← ih, hrows]

/-- Reading rows fails as one of them does. -/
theorem exists_error_of_mapM {ε : Type} {read : α → Except ε β} {rows : List α} {e : ε}
    (h : rows.mapM read = .error e) : ∃ row ∈ rows, read row = .error e := by
  induction rows with
  | nil => cases h
  | cons row rows ih =>
    rw [List.mapM_cons] at h
    cases hrow : read row with
    | error e' =>
      rw [hrow] at h
      cases h
      exact ⟨row, List.mem_cons_self, hrow⟩
    | ok x =>
      rw [hrow] at h
      cases hrows : rows.mapM read with
      | error e' =>
        rw [hrows] at h ih
        cases h
        obtain ⟨row', hmem, herror⟩ := ih rfl
        exact ⟨row', List.mem_cons_of_mem _ hmem, herror⟩
      | ok xs =>
        rw [hrows] at h
        cases h

/-- What was read was read off one of the rows. -/
theorem exists_row_of_mapM {ε : Type} {read : α → Except ε β} {rows : List α} {xs : List β}
    (h : rows.mapM read = .ok xs) {x : β} (hx : x ∈ xs) : ∃ row ∈ rows, read row = .ok x := by
  rw [mapM_eq_ok] at h
  induction h with
  | nil => cases hx
  | cons hread _ ih =>
    rcases List.mem_cons.1 hx with rfl | hx
    · exact ⟨_, List.mem_cons_self, hread⟩
    · obtain ⟨row, hrow, hread⟩ := ih hx
      exact ⟨row, List.mem_cons_of_mem _ hrow, hread⟩

end Waybill
