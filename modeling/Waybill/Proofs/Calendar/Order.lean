/-
  The texts of instants are in the order of instants.

  In the years 0 to 9999 every number of a text has its width, so the texts are compared number by
  number.  The fraction of a second is the exception: what it leaves out is followed by a plus sign,
  which comes before the point and before every digit.

  * `Instant.numbers`: year, month, day, hour, minute, second and nanosecond;
  * `digits` are the last digits of a number, `groups` those of a fraction with what follows it.

  Statement: `Instant.stored_lt_stored_iff`.
-/
import Mathlib.Data.Char
import Mathlib.Data.List.Lex
import Mathlib.Data.Set.Function
import Mathlib.Order.Interval.Set.Basic
import Waybill.Proofs.Calendar.Stamp

namespace Waybill.Calendar

/-- Texts that start with as many letters are compared by these first. -/
theorem append_lt_append_iff {xs ys xs' ys' : List Char} (h : xs.length = ys.length) :
    xs ++ xs' < ys ++ ys' ↔ xs < ys ∨ xs = ys ∧ xs' < ys' := by
  induction xs generalizing ys with
  | nil =>
    obtain rfl := List.length_eq_zero_iff.1 h.symm
    simp
  | cons x xs ih =>
    cases ys with
    | nil => cases h
    | cons y ys =>
      simp only [List.cons_append, List.cons_lt_cons_iff, ih (Nat.succ.inj h), List.cons.injEq]
      tauto

/-! ## Digits -/

/-- The last digits of a number, as many as told. -/
def digits : Nat → Nat → List Char
  | 0, _ => []
  | w + 1, n => digits w (n / 10) ++ [Nat.digitChar (n % 10)]

@[simp] theorem length_digits (w n : Nat) : (digits w n).length = w := by
  induction w generalizing n with
  | zero => rfl
  | succ w ih => simp [digits, ih]

theorem digits_zero (w : Nat) : digits w 0 = List.replicate w '0' := by
  induction w with
  | zero => rfl
  | succ w ih =>
    rw [digits, Nat.zero_div, ih, List.replicate_succ']
    rfl

theorem digits_add (v w n : Nat) : digits (v + w) n = digits v (n / 10 ^ w) ++ digits w n := by
  induction w generalizing n with
  | zero => simp [digits]
  | succ w ih =>
    rw [← Nat.add_assoc, digits, digits, ih, Nat.div_div_eq_div_mul, ← Nat.pow_succ',
      List.append_assoc]

theorem digits_mod (w n : Nat) : digits w (n % 10 ^ w) = digits w n := by
  induction w generalizing n with
  | zero => rfl
  | succ w ih =>
    rw [digits, digits, Nat.pow_succ', Nat.mod_mul_right_div_self, ih,
      Nat.mod_mul_right_mod]

theorem toList_padded_eq_digits {w n : Nat} (hw : 0 < w) (h : n < 10 ^ w) :
    (padded w n).toList = digits w n := by
  induction w generalizing n with
  | zero => cases hw
  | succ w ih =>
    rw [toList_padded, digits]
    rcases Nat.lt_or_ge n 10 with hlt | hge
    · -- all digits but the last are zeros
      rw [Nat.toDigits_of_lt_base hlt, Nat.div_eq_of_lt hlt, Nat.mod_eq_of_lt hlt, digits_zero]
      rfl
    · have hw : 0 < w := by
        rcases Nat.eq_zero_or_pos w with rfl | hw
        · omega
        · exact hw
      have hn : Nat.toDigits 10 n = Nat.toDigits 10 (n / 10) ++ [Nat.digitChar (n % 10)] := by
        rw [← Nat.toDigits_of_lt_base (Nat.mod_lt n (by decide)),
          Nat.toDigits_append_toDigits (by decide) (by omega) (Nat.mod_lt _ (by decide)),
          Nat.div_add_mod]
      rw [← ih hw (Nat.div_lt_of_lt_mul (by rwa [Nat.pow_succ'] at h)), toList_padded, hn]
      simp

theorem digitChar_lt_digitChar {m n : Nat} (h : m < n) (hn : n < 10) :
    Nat.digitChar m < Nat.digitChar n := by
  have hall : ∀ n : Fin 10, ∀ m : Fin n, Nat.digitChar m < Nat.digitChar n := by decide
  exact hall ⟨n, hn⟩ ⟨m, h⟩

/-- Digits are in the order of their numbers. -/
theorem strictMonoOn_digits (w : Nat) : StrictMonoOn (digits w) (Set.Iio (10 ^ w)) := by
  induction w with
  | zero =>
    intro m hm n hn h
    simp only [Nat.pow_zero, Set.mem_Iio] at hm hn
    omega
  | succ w ih =>
    intro m hm n hn h
    rw [Set.mem_Iio, Nat.pow_succ] at hm hn
    rw [digits, digits, append_lt_append_iff (by simp)]
    rcases Nat.lt_or_ge (m / 10) (n / 10) with hlt | hge
    · exact .inl (ih (Nat.div_lt_of_lt_mul (by omega)) (Nat.div_lt_of_lt_mul (by omega)) hlt)
    · have hdiv : m / 10 = n / 10 := by omega
      refine .inr ⟨by rw [hdiv], List.cons_lt_cons_iff.2 (.inl ?_)⟩
      exact digitChar_lt_digitChar (by omega) (Nat.mod_lt _ (by decide))

/-- Numbers of one width are compared before what follows them. -/
theorem digits_append_lt_iff {w m n : Nat} (hm : m < 10 ^ w) (hn : n < 10 ^ w)
    {xs ys : List Char} :
    digits w m ++ xs < digits w n ++ ys ↔ m < n ∨ m = n ∧ xs < ys := by
  rw [append_lt_append_iff (by simp), (strictMonoOn_digits w).lt_iff_lt hm hn,
    Set.InjOn.eq_iff (strictMonoOn_digits w).injOn hm hn]

/-! ## Fractions -/

/-- What follows the fraction of a second. -/
def ending : List Char := "+00:00".toList

/-- A fraction in groups of three digits, as few as hold it, and what follows. -/
def groups : Nat → Nat → List Char
  | 0, _ => ending
  | k + 1, n => if n = 0 then ending else digits 3 (n / 1000 ^ k) ++ groups k (n % 1000 ^ k)

theorem digitChar_gt_plus {n : Nat} (h : n < 10) : '+' < Nat.digitChar n := by
  have hall : ∀ n : Fin 10, '+' < Nat.digitChar n := by decide
  exact hall ⟨n, h⟩

/-- A fraction that ends comes before one that goes on. -/
theorem ending_lt_digits (n : Nat) (xs : List Char) : ending < digits 3 n ++ xs := by
  have hplus : '+' < Nat.digitChar (n / 10 / 10 % 10) :=
    digitChar_gt_plus (Nat.mod_lt _ (by decide))
  exact List.cons_lt_cons_iff.2 (.inl hplus)

/-- Fractions are in the order of their numbers. -/
theorem strictMonoOn_groups (k : Nat) : StrictMonoOn (groups k) (Set.Iio (1000 ^ k)) := by
  induction k with
  | zero =>
    intro m hm n hn h
    simp only [Nat.pow_zero, Set.mem_Iio] at hm hn
    omega
  | succ k ih =>
    intro m hm n hn h
    rw [Set.mem_Iio, Nat.pow_succ] at hm hn
    have hn0 : n ≠ 0 := by omega
    rw [groups, groups, if_neg hn0]
    by_cases hm0 : m = 0
    · rw [if_pos hm0]
      exact ending_lt_digits ..
    · rw [if_neg hm0, digits_append_lt_iff (Nat.div_lt_of_lt_mul hm) (Nat.div_lt_of_lt_mul hn)]
      have hpos : 0 < 1000 ^ k := Nat.pow_pos (by decide)
      rcases Nat.lt_or_ge (m / 1000 ^ k) (n / 1000 ^ k) with hlt | hge
      · exact .inl hlt
      · have hdiv : m / 1000 ^ k = n / 1000 ^ k :=
          Nat.le_antisymm (Nat.div_le_div_right h.le) hge
        refine .inr ⟨hdiv, ih (Nat.mod_lt _ hpos) (Nat.mod_lt _ hpos) ?_⟩
        have hm' := Nat.div_add_mod m (1000 ^ k)
        have hn' := Nat.div_add_mod n (1000 ^ k)
        rw [hdiv] at hm'
        omega

/-- A fraction of a second with the point before it, and what follows. -/
def fractionEnd (nano : Nat) : List Char :=
  if nano = 0 then ending else '.' :: groups 3 nano

theorem toList_fraction (t : Time) :
    (t.fraction ++ "+00:00").toList = fractionEnd t.nano := by
  have hnano := t.isReal.2.2.2
  -- the groups are the same digits, read off the rest of the fraction
  have hsecond : digits 3 (t.nano % 1000000 / 1000) = digits 3 (t.nano / 1000) := by
    rw [← digits_mod 3 (t.nano / 1000)]
    exact congrArg (digits 3) (by omega)
  have hthird : digits 3 (t.nano % 1000) = digits 3 t.nano := digits_mod 3 t.nano
  unfold Time.fraction fractionEnd
  by_cases h0 : t.nano = 0
  · simp [h0, ending]
  by_cases h1 : t.nano % 1000000 = 0
  · have hlt : t.nano / 1000000 < 10 ^ 3 := by omega
    simp [h0, h1, groups, toList_padded_eq_digits (by decide : 0 < 3) hlt, ending]
  by_cases h2 : t.nano % 1000 = 0
  · have hlt : t.nano / 1000 < 10 ^ 6 := by omega
    have hsix := toList_padded_eq_digits (by decide) hlt
    rw [digits_add 3 3, Nat.div_div_eq_div_mul] at hsix
    simp [h0, h1, h2, groups, hsix, hsecond, ending]
  · have hnine := toList_padded_eq_digits (w := 9) (by decide) hnano
    rw [digits_add 3 6, digits_add 3 3] at hnine
    simp [h0, h1, h2, groups, hnine, hsecond, hthird, ending]

theorem fractionEnd_lt_iff {m n : Nat} (hm : m < 1000000000) (hn : n < 1000000000) :
    fractionEnd m < fractionEnd n ↔ m < n := by
  have hpoint (k : Nat) : ending < '.' :: groups 3 k :=
    List.cons_lt_cons_iff.2 (.inl (by decide))
  unfold fractionEnd
  by_cases hm0 : m = 0 <;> by_cases hn0 : n = 0
  · simp [hm0, hn0]
  · simpa [hm0, hn0, hpoint] using Nat.pos_of_ne_zero hn0
  · simpa [hm0, hn0] using (hpoint m).le
  · simp [hm0, hn0, (strictMonoOn_groups 3).lt_iff_lt hm hn]

/-! ## Instants -/

namespace Instant

variable {i j : Instant}

/-- The numbers of an instant, from the year to the nanosecond. -/
def numbers (i : Instant) : List Int :=
  let d := i.moment.date
  let t := i.moment.time
  [d.year, d.month, d.day, t.hour, t.minute, t.second, t.nano]

theorem numbers_injective : Function.Injective numbers := by
  rintro ⟨⟨d, t⟩⟩ ⟨⟨e, u⟩⟩ h
  simp only [numbers, List.cons.injEq, Int.natCast_inj, and_true] at h
  obtain ⟨hyear, hmonth, hday, hhour, hminute, hsecond, hnano⟩ := h
  have hdate : d = e := Date.ext_numbers hyear hmonth hday
  have htime : t = u := by
    cases t
    cases u
    simp_all
  rw [hdate, htime]

/-- The year is written with four digits and no sign. -/
def FourDigits (i : Instant) : Prop :=
  0 ≤ i.moment.date.year ∧ i.moment.date.year ≤ 9999

theorem FourDigits.toList_stored (h : i.FourDigits) : i.stored.toList =
    digits 4 i.moment.date.year.toNat ++ '-' :: (digits 2 i.moment.date.month ++
      '-' :: (digits 2 i.moment.date.day ++ ' ' :: (digits 2 i.moment.time.hour ++
        ':' :: (digits 2 i.moment.time.minute ++ ':' :: (digits 2 i.moment.time.second ++
          fractionEnd i.moment.time.nano))))) := by
  obtain ⟨-, hmonth, -, hday⟩ := i.moment.date.isReal
  obtain ⟨hhour, hminute, hsecond, -⟩ := i.moment.time.isReal
  have hdays := daysInMonth_le i.moment.date.year i.moment.date.month
  have ⟨hlow, hhigh⟩ := h
  rw [← toList_fraction]
  have hyear : (yearText i.moment.date.year).toList = digits 4 i.moment.date.year.toNat := by
    rw [yearText, if_pos ⟨hlow, hhigh⟩]
    exact toList_padded_eq_digits (by decide) (by omega)
  have htwo {n : Nat} (hn : n < 100) : (padded 2 n).toList = digits 2 n :=
    toList_padded_eq_digits (by decide) hn
  simp [stored, Date.iso, Time.clock, hyear, htwo (show i.moment.date.month < 100 by omega),
    htwo (show i.moment.date.day < 100 by omega), htwo (show i.moment.time.hour < 100 by omega),
    htwo (show i.moment.time.minute < 100 by omega),
    htwo (show i.moment.time.second < 100 by omega)]

/-- **The texts of instants are in the order of instants.** -/
theorem stored_lt_stored_iff (hi : i.FourDigits) (hj : j.FourDigits) :
    i.stored < j.stored ↔ i.numbers < j.numbers := by
  obtain ⟨-, hmonth, -, hday⟩ := i.moment.date.isReal
  obtain ⟨-, hmonth', -, hday'⟩ := j.moment.date.isReal
  have hdays := daysInMonth_le i.moment.date.year i.moment.date.month
  have hdays' := daysInMonth_le j.moment.date.year j.moment.date.month
  obtain ⟨hhour, hminute, hsecond, hnano⟩ := i.moment.time.isReal
  obtain ⟨hhour', hminute', hsecond', hnano'⟩ := j.moment.time.isReal
  rw [String.lt_iff, hi.toList_stored, hj.toList_stored]
  obtain ⟨hlow, hhigh⟩ := hi
  obtain ⟨hlow', hhigh'⟩ := hj
  have hcons (c : Char) (xs ys : List Char) : c :: xs < c :: ys ↔ xs < ys := by simp
  rw [digits_append_lt_iff (by omega) (by omega), hcons,
    digits_append_lt_iff (by omega) (by omega), hcons,
    digits_append_lt_iff (by omega) (by omega), hcons,
    digits_append_lt_iff (by omega) (by omega), hcons,
    digits_append_lt_iff (by omega) (by omega), hcons,
    digits_append_lt_iff (by omega) (by omega), fractionEnd_lt_iff hnano hnano']
  have hyear : i.moment.date.year.toNat < j.moment.date.year.toNat ↔
      i.moment.date.year < j.moment.date.year := by omega
  have hyear' : i.moment.date.year.toNat = j.moment.date.year.toNat ↔
      i.moment.date.year = j.moment.date.year := by omega
  simp only [numbers, List.cons_lt_cons_iff, Int.ofNat_lt, Int.natCast_inj, lt_self_iff_false,
    and_false, or_false, hyear, hyear']

end Instant

end Waybill.Calendar
