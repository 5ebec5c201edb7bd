/-
  Texts that become dates.

  A text of ten bytes that reads as a date becomes one, and so does a longer one that reads as a
  moment.  Reading passes over blanks before a number and takes numbers without their leading zeros,
  so some texts become dates that are shown in another spelling.

  * `Narrow`: characters of one byte.

  Statements: `ofText_eq_date_iff` and `ofText_eq_moment_iff` (which texts these are) and
  `texts_read_as_dates`, with `irregular_spelling_is_lost` beside it.
-/
import Waybill.Payload.OfJson
import Waybill.Proofs.Calendar.Reading

namespace Waybill.Payload

open Waybill.Calendar

/-! ## Bytes -/

/-- Characters of one byte each. -/
def Narrow (cs : List Char) : Prop :=
  ∀ c ∈ cs, c.utf8Size = 1

section Bytes

variable {s : String} {cs rest : List Char}

theorem toUTF8_eq (hs : s.toList = cs ++ rest) (h : Narrow cs) :
    s.toUTF8 = (cs.map Char.toUInt8 ++ rest.flatMap String.utf8EncodeChar).toByteArray := by
  have hnarrow : cs.flatMap String.utf8EncodeChar = cs.map Char.toUInt8 := by
    rw [List.map_eq_flatMap]
    exact List.flatMap_congr fun c hc => String.utf8EncodeChar_eq_singleton (h c hc)
  rw [← hnarrow, ← List.flatMap_append, ← hs]
  exact String.utf8Encode_toList.symm

theorem utf8ByteSize_of_narrow (h : Narrow s.toList) : s.utf8ByteSize = s.toList.length := by
  have hbytes := toUTF8_eq (List.append_nil _).symm h
  rw [← String.size_toByteArray, show s.toByteArray = s.toUTF8 from rfl, hbytes]
  simp

theorem length_le_utf8ByteSize (hs : s.toList = cs ++ rest) (h : Narrow cs) :
    cs.length ≤ s.utf8ByteSize := by
  rw [← String.size_toByteArray, show s.toByteArray = s.toUTF8 from rfl, toUTF8_eq hs h]
  simp

theorem getElem?_toByteArray (bytes : List UInt8) (i : Nat) :
    bytes.toByteArray[i]? = bytes[i]? := by
  by_cases h : i < bytes.length
  · rw [getElem?_pos bytes.toByteArray i (by simpa using h), List.getElem?_eq_getElem h]
    simp [ByteArray.getElem_eq_getElem_data]
  · rw [getElem?_neg bytes.toByteArray i (by simpa using h), List.getElem?_eq_none (by omega)]

/-- The bytes of a text are its characters, as long as these have one byte. -/
theorem getElem?_toUTF8 (hs : s.toList = cs ++ rest) (h : Narrow cs) {i : Nat} {c : Char}
    (hc : cs[i]? = some c) : s.toUTF8[i]? = some c.toUInt8 := by
  have hlt : i < cs.length := (List.getElem?_eq_some_iff.1 hc).1
  rw [toUTF8_eq hs h, getElem?_toByteArray, List.getElem?_append_left (by simpa using hlt),
    List.getElem?_map, hc]
  rfl

end Bytes

theorem utf8Size_of_isDigit {c : Char} (h : c.isDigit = true) : c.utf8Size = 1 := by
  have hall : ∀ m : Fin 10, (Nat.digitChar m.val).utf8Size = 1 := by decide
  obtain ⟨hc, hlt⟩ := digitChar_toNat h
  exact hc ▸ hall ⟨_, hlt⟩

theorem narrow_iso (d : Date) : Narrow d.iso.toList := by
  intro c hc
  rcases mem_iso hc with h | rfl | rfl
  · exact utf8Size_of_isDigit h
  · rfl
  · rfl

theorem narrow_front (m : Moment) : Narrow m.front := by
  intro c hc
  rcases List.mem_append.1 hc with hc | hc
  · exact narrow_iso m.date c hc
  rcases List.mem_cons.1 hc with rfl | hc
  · rfl
  rcases mem_clock hc with h | rfl
  · exact utf8Size_of_isDigit h
  · rfl

/-- The letter of a moment is no byte of a date. -/
theorem toUInt8_ne_letter {d : Date} {c : Char} (hc : c ∈ d.iso.toList) :
    c.toUInt8 ≠ 'T'.toUInt8 := by
  have hall : ∀ m : Fin 10, (Nat.digitChar m.val).toUInt8 ≠ 'T'.toUInt8 := by decide
  rcases mem_iso hc with h | rfl | rfl
  · obtain ⟨hc, hlt⟩ := digitChar_toNat h
    exact hc ▸ hall ⟨_, hlt⟩
  · decide
  · decide

/-! ## Texts -/

variable {s : String} {d : Date} {m : Moment}

theorem ofText_eq_date_iff :
    Scalar.ofText s = .date d ↔ s.utf8ByteSize = 10 ∧ DateText d s.toList := by
  rw [← date?_eq_some_iff]
  unfold Scalar.ofText
  by_cases hsize : s.utf8ByteSize = 10
  · rw [if_pos hsize]
    cases date? s with
    | some e => simp [hsize]
    | none => simp [hsize]
  · rw [if_neg hsize]
    dsimp only
    split <;> simp [hsize]

theorem ofText_eq_moment_iff : Scalar.ofText s = .moment m ↔
    19 ≤ s.utf8ByteSize ∧ s.toUTF8[10]? = some 'T'.toUInt8 ∧ MomentText m s.toList := by
  rw [← moment?_eq_some_iff, ← and_assoc]
  unfold Scalar.ofText
  by_cases hsize : s.utf8ByteSize = 10
  · rw [if_pos hsize]
    cases date? s <;> simp [hsize]
  · rw [if_neg hsize]
    dsimp only
    by_cases hsplits : 19 ≤ s.utf8ByteSize ∧ s.toUTF8[10]? = some 'T'.toUInt8
    · rw [if_pos hsplits]
      cases moment? s with
      | some n => simp only [hsplits, Scalar.moment.injEq, Option.some.injEq, true_and]
      | none => exact ⟨nofun, fun ⟨_, h⟩ => nomatch h⟩
    · rw [if_neg hsplits]
      exact ⟨nofun, fun h => (hsplits h.1).elim⟩

/-- A text that becomes no date stays as it is. -/
theorem ofText_cases (s : String) : (∃ d, Scalar.ofText s = .date d) ∨
    (∃ m, Scalar.ofText s = .moment m) ∨ Scalar.ofText s = .text s := by
  unfold Scalar.ofText
  split
  · next d _ => exact .inl ⟨d, rfl⟩
  · dsimp only
    split
    · next m _ => exact .inr (.inl ⟨m, rfl⟩)
    · exact .inr (.inr rfl)

theorem ofText_of_plainDate (h : PlainDate d s.toList) : Scalar.ofText s = .date d := by
  refine ofText_eq_date_iff.2 ⟨?_, h.dateText⟩
  obtain ⟨hrange, hiso⟩ := plainDate_iff.1 h
  rw [utf8ByteSize_of_narrow (hiso ▸ narrow_iso d), ← hiso]
  rcases length_iso d with ⟨-, hlength⟩ | ⟨hfar, -⟩
  · exact hlength
  · exact (hfar hrange).elim

/-- A date is shown as it was written when it was written plainly. -/
theorem iso_eq_iff (h : Scalar.ofText s = .date d) : d.iso = s ↔ PlainDate d s.toList := by
  rw [plainDate_iff]
  refine ⟨?_, fun hplain => String.toList_injective hplain.2⟩
  rintro rfl
  have hsize := (ofText_eq_date_iff.1 h).1
  rw [utf8ByteSize_of_narrow (narrow_iso d)] at hsize
  rcases length_iso d with ⟨hrange, -⟩ | ⟨-, hlength⟩
  · exact ⟨hrange, rfl⟩
  · omega

theorem ofText_of_plainMoment {fraction : List Char} (h : PlainMoment m fraction s.toList) :
    Scalar.ofText s = .moment m := by
  have hread := h.momentText
  obtain ⟨date, clock, hdate, hclock, -, hs⟩ := h
  obtain ⟨hrange, rfl⟩ := plainDate_iff.1 hdate
  obtain rfl := plainClock_iff.1 hclock
  have hfront : s.toList = m.front ++ fraction := by rw [hs]; simp [Moment.front]
  have hten : m.date.iso.toList.length = 10 := by
    rcases length_iso m.date with ⟨-, hlength⟩ | ⟨hfar, -⟩
    · exact hlength
    · exact (hfar hrange).elim
  refine ofText_eq_moment_iff.2 ⟨?_, ?_, hread⟩
  · have hle := length_le_utf8ByteSize hfront (narrow_front m)
    simpa [Moment.front, hten, length_clock] using hle
  · refine getElem?_toUTF8 hfront (narrow_front m) ?_
    rw [Moment.front, List.getElem?_append_right hten.le, hten]
    rfl

/-- A moment that is shown as it was written was written plainly. -/
theorem plain_of_shownBack (h : Scalar.ofText s = .moment m) (hshown : ShownBack m s.toList) :
    ∃ fraction, PlainMoment m fraction s.toList := by
  obtain ⟨-, hletter, hread⟩ := ofText_eq_moment_iff.1 h
  refine hshown.plain (moment?_eq_some_iff.2 hread) ?_
  rcases length_iso m.date with ⟨hrange, -⟩ | ⟨-, hlength⟩
  · exact hrange
  · -- the letter would stand within the date
    exfalso
    obtain ⟨rest, hs⟩ := hshown.exists_rest
    rw [Moment.front, List.append_assoc] at hs
    have hten := List.getElem?_eq_getElem hlength
    have hbyte := getElem?_toUTF8 hs (narrow_iso m.date) hten
    exact toUInt8_ne_letter (List.getElem_mem hlength) (Option.some.inj (hbyte.symm.trans hletter))

/-- **Texts that become dates.**  A text becomes a date exactly when it has ten bytes and reads as a
    date, a moment exactly when it has at least nineteen, the letter after ten of them, and reads as
    a moment; every other text stays as it is.  With all numbers at their widths a text does become
    a date or a moment, and is shown as it was written, a moment of at most nine digits after the
    point but for zeros at the end.  Any other text that becomes a date or a moment is shown in
    another spelling. -/
theorem texts_read_as_dates (s : String) :
    (∀ d, Value.ofJson (.text s) = .scalar (.date d) ↔
      s.utf8ByteSize = 10 ∧ DateText d s.toList) ∧
    (∀ m, Value.ofJson (.text s) = .scalar (.moment m) ↔
      19 ≤ s.utf8ByteSize ∧ s.toUTF8[10]? = some 'T'.toUInt8 ∧ MomentText m s.toList) ∧
    ((∃ d, Value.ofJson (.text s) = .scalar (.date d)) ∨
      (∃ m, Value.ofJson (.text s) = .scalar (.moment m)) ∨
      Value.ofJson (.text s) = .scalar (.text s)) ∧
    (∀ d, PlainDate d s.toList → Value.ofJson (.text s) = .scalar (.date d)) ∧
    (∀ d, Value.ofJson (.text s) = .scalar (.date d) →
      ((Scalar.date d).shown = s ↔ PlainDate d s.toList)) ∧
    (∀ m fraction, PlainMoment m fraction s.toList →
      Value.ofJson (.text s) = .scalar (.moment m) ∧
        (fraction.length ≤ 10 → ShownBack m s.toList)) ∧
    ∀ m, Value.ofJson (.text s) = .scalar (.moment m) → ShownBack m s.toList →
      ∃ fraction, PlainMoment m fraction s.toList := by
  have hjson : Value.ofJson (.text s) = .scalar (.ofText s) := by rw [Value.ofJson]
  simp only [hjson, Value.scalar.injEq]
  exact ⟨fun d => ofText_eq_date_iff, fun m => ofText_eq_moment_iff, ofText_cases s,
    fun d => ofText_of_plainDate, fun d => iso_eq_iff,
    fun m fraction h => ⟨ofText_of_plainMoment h, h.shownBack⟩, fun m => plain_of_shownBack⟩

/-- A plain date and a plain moment are shown as they were written. -/
theorem sample_texts_read_as_dates :
    (∃ d, PlainDate d "2026-03-01".toList ∧
      Value.ofJson (.text "2026-03-01") = .scalar (.date d) ∧
        (Scalar.date d).shown = "2026-03-01") ∧
    ∃ m, PlainMoment m ".5".toList "2026-03-01T08:05:03.5".toList ∧
      Value.ofJson (.text "2026-03-01T08:05:03.5") = .scalar (.moment m) ∧
        ShownBack m "2026-03-01T08:05:03.5".toList := by
  let day : Date := ⟨2026, 3, 1, by decide⟩
  let time : Time := ⟨8, 5, 3, 500000000, by decide⟩
  have hday : PlainDate day "2026-03-01".toList := plainDate_iff.2 ⟨by decide, by decide +kernel⟩
  have htime : PlainClock time "08:05:03".toList := plainClock_iff.2 (by decide +kernel)
  have hfraction : FractionText time.nano ".5".toList :=
    .inr ⟨['5'], by decide +kernel, by simp [Digits], by simp, by decide +kernel⟩
  have hmoment : PlainMoment ⟨day, time⟩ ".5".toList "2026-03-01T08:05:03.5".toList :=
    ⟨_, _, hday, htime, hfraction, by decide +kernel⟩
  obtain ⟨-, -, -, hdate, hshown, -, -⟩ := texts_read_as_dates "2026-03-01"
  obtain ⟨-, -, -, -, -, hplain, -⟩ := texts_read_as_dates "2026-03-01T08:05:03.5"
  exact ⟨⟨day, hday, hdate day hday, (hshown day (hdate day hday)).2 hday⟩,
    ⟨day, time⟩, hmoment, (hplain _ _ hmoment).1, (hplain _ _ hmoment).2 (by decide +kernel)⟩

/-- Texts with blanks in them become dates and moments, and are shown without them. -/
theorem irregular_spelling_is_lost :
    (∃ d, Value.ofJson (.text "2026- 3- 1") = .scalar (.date d) ∧
      (Scalar.date d).shown = "2026-03-01" ∧ ¬ ∃ e, PlainDate e "2026- 3- 1".toList) ∧
    ∃ m, Value.ofJson (.text "2026-03-01T 8: 5: 3") = .scalar (.moment m) ∧
      (Scalar.moment m).shown = "2026-03-01T08:05:03" := by
  let day : Date := ⟨2026, 3, 1, by decide⟩
  let time : Time := ⟨8, 5, 3, 0, by decide⟩
  have hday : Scalar.ofText "2026- 3- 1" = .date day := by
    rw [ofText_eq_date_iff, ← date?_eq_some_iff]
    exact ⟨by decide +kernel, by decide +kernel⟩
  have hmoment : Scalar.ofText "2026-03-01T 8: 5: 3" = .moment ⟨day, time⟩ := by
    rw [ofText_eq_moment_iff, ← moment?_eq_some_iff]
    exact ⟨by decide +kernel, by decide +kernel, by decide +kernel⟩
  refine ⟨⟨day, by rw [Value.ofJson, hday], by decide +kernel, ?_⟩,
    ⟨day, time⟩, by rw [Value.ofJson, hmoment], by decide +kernel⟩
  rintro ⟨e, he⟩
  obtain rfl : e = day := Scalar.date.inj ((ofText_of_plainDate he).symm.trans hday)
  exact absurd ((iso_eq_iff hday).2 he) (by decide +kernel)

end Waybill.Payload
