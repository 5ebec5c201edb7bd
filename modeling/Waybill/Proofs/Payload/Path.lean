/-
  Paths into a payload, put together and taken apart.

  A path is walked by its names alone, so what stands between the names does not count, and the two
  parts of a repeating key are paths of their own.

  * `Between`: a place of a path that is not inside a name;
  * `dots` are dots in a row.

  Statements: `resolve_append` (one path after the other), `resolve_insert` (what may be added to a
  path), `isRepeating_eq` (the keys that can be taken apart), `rows_joined` (what a repeating key
  addresses) and `paths_compose`.
-/
import Waybill.Payload.Path
import Waybill.Proofs.Text.Split

namespace Waybill.Payload

open Waybill.Text

/-! ## Names of a path -/

theorem segments_eq (path : String) :
    segments path = (names '.' path.toList).map String.ofList := rfl

theorem segments_append (path more : String) :
    segments (path ++ "." ++ more) = segments path ++ segments more := by
  have hlist : (path ++ "." ++ more).toList = path.toList ++ '.' :: more.toList := by simp
  rw [segments_eq, hlist, names_append_cons, List.map_append]
  rfl

/-- **Paths compose:** joined by a dot, they are walked one after the other. -/
theorem resolve_append (v : Value) (path more : String) :
    v.resolve (path ++ "." ++ more) = (v.resolve path).bind fun next => next.resolve more := by
  rw [Value.resolve, segments_append, Value.follow_append]
  rfl

/-- Texts with the same names between dots are one path. -/
theorem resolve_congr {path path' : String}
    (h : names '.' path.toList = names '.' path'.toList) (v : Value) :
    v.resolve path = v.resolve path' := by
  rw [Value.resolve, Value.resolve, segments_eq, segments_eq, h]

/-- A path of dots and blanks stays where it is. -/
theorem resolve_filler {path : String} (h : ∀ c ∈ path.toList, IsFiller '.' c) (v : Value) :
    v.resolve path = some v := by
  rw [Value.resolve, segments_eq, names_eq_nil_iff.2 h]
  rfl

/-! ## What stands between names -/

/-- No name goes on from one text to the other: blanks aside, the first is empty or ends with a dot,
    or the second is empty or starts with one. -/
def Between (before after : String) : Prop :=
  (∀ c ∈ (dropBlanksEnd before.toList).getLast?, c = '.') ∨
    ∀ c ∈ (dropBlanks after.toList).head?, c = '.'

/-- A text that is empty but for blanks at its front, or has a dot after them. -/
theorem exists_front {cs : List Char} (h : ∀ c ∈ (dropBlanks cs).head?, c = '.') :
    ∃ blanks rest, (∀ c ∈ blanks, IsFiller '.' c) ∧
      cs = blanks ++ rest ∧ (rest = [] ∨ ∃ ds, rest = '.' :: ds) := by
  refine ⟨cs.takeWhile isBlank, dropBlanks cs, fun c hc => Or.inr (List.mem_takeWhile_imp hc),
    List.takeWhile_append_dropWhile.symm, ?_⟩
  cases hrest : dropBlanks cs with
  | nil => exact Or.inl rfl
  | cons c ds =>
    rw [hrest] at h
    exact Or.inr ⟨ds, congrArg (· :: ds) (h c rfl)⟩

theorem exists_back {cs : List Char} (h : ∀ c ∈ (dropBlanksEnd cs).getLast?, c = '.') :
    ∃ rest blanks, (∀ c ∈ blanks, IsFiller '.' c) ∧
      cs = rest ++ blanks ∧ (rest = [] ∨ ∃ ds, rest = ds ++ ['.']) := by
  refine ⟨dropBlanksEnd cs, cs.rtakeWhile isBlank,
    fun c hc => Or.inr (List.mem_rtakeWhile_imp hc), List.rdropWhile_append_rtakeWhile.symm, ?_⟩
  rcases List.eq_nil_or_concat (dropBlanksEnd cs) with hrest | ⟨ds, c, hrest⟩
  · exact Or.inl hrest
  · rw [hrest] at h
    obtain rfl : c = '.' := h c (by simp)
    exact Or.inr ⟨ds, by simpa using hrest⟩

/-- Dots and blanks between names do not count. -/
theorem names_insert {before after filler : List Char} (hfiller : ∀ c ∈ filler, IsFiller '.' c)
    (h : (∀ c ∈ (dropBlanksEnd before).getLast?, c = '.') ∨
      ∀ c ∈ (dropBlanks after).head?, c = '.') :
    names '.' (before ++ filler ++ after) = names '.' (before ++ after) := by
  rcases h with h | h
  · obtain ⟨rest, blanks, hblanks, rfl, rfl | ⟨ds, rfl⟩⟩ := exists_back h
    · rw [List.nil_append, List.append_assoc, names_filler_append hblanks,
        names_filler_append hfiller, names_filler_append hblanks]
    · simp only [List.append_assoc, List.cons_append, List.nil_append]
      rw [names_append_cons, names_append_cons, names_filler_append hblanks,
        names_filler_append hfiller, names_filler_append hblanks]
  · obtain ⟨blanks, rest, hblanks, rfl, rfl | ⟨ds, rfl⟩⟩ := exists_front h
    · rw [List.append_nil, names_append_filler hblanks, names_append_filler hfiller,
        names_append_filler hblanks]
    · rw [← List.append_assoc, ← List.append_assoc, names_append_cons, names_append_cons,
        names_append_filler hblanks, names_append_filler hfiller, names_append_filler hblanks]

/-- Dots, blank names and blanks around names may be added to a path. -/
theorem resolve_insert (v : Value) {before filler after : String}
    (hfiller : ∀ c ∈ filler.toList, IsFiller '.' c) (h : Between before after) :
    v.resolve (before ++ filler ++ after) = v.resolve (before ++ after) := by
  refine resolve_congr ?_ v
  simpa using names_insert hfiller h

/-! ## Repeating keys -/

theorem infix_dropBlanks {m : Char} (hm : isBlank m = false) {ms cs : List Char}
    (h : m :: ms <:+: cs) : m :: ms <:+: dropBlanks cs := by
  induction cs with
  | nil => exact h
  | cons c cs ih =>
    by_cases hc : isBlank c
    · rw [dropBlanks, List.dropWhile_cons_of_pos hc]
      rcases List.infix_cons_iff.1 h with h | h
      · obtain ⟨rfl, -⟩ := List.cons_prefix_cons.1 h
        simp [hm] at hc
      · exact ih h
    · rwa [dropBlanks, List.dropWhile_cons_of_neg hc]

/-- The blanks around a key are not part of its marker. -/
theorem marker_infix_trimmed {cs : List Char} : marker <:+: trimmed cs ↔ marker <:+: cs := by
  constructor
  · exact fun h => h.trans
      ((prefix_dropBlanksEnd _).isInfix.trans (List.dropWhile_suffix isBlank).isInfix)
  · intro h
    have hfront : marker <:+: dropBlanks cs := infix_dropBlanks (by decide) h
    have hback : marker.reverse <:+: dropBlanks (dropBlanks cs).reverse :=
      infix_dropBlanks (by decide) (List.reverse_infix.2 hfront)
    rw [← List.reverse_reverse marker]
    exact List.reverse_infix.2 hback

/-- A key is repeating when it can be taken apart. -/
theorem isRepeating_eq (key : String) : isRepeating key = (splitRepeating? key).isSome := by
  rw [Bool.eq_iff_iff, isRepeating, splitRepeating?, Option.isSome_map, cutAt?_isSome_iff,
    cutAt?_isSome_iff, marker_infix_trimmed]

/-- The first marker is the one after a path without markers: its two characters differ, so it
    does not start in the path. -/
theorem cutAt?_marker {before : List Char} (h : ¬ marker <:+: before) (after : List Char) :
    cutAt? marker (before ++ marker ++ after) = some (before, after) := by
  induction before with
  | nil => rfl
  | cons c before ih =>
    have hbefore : ¬ marker <:+: before := fun hb => h (List.infix_cons hb)
    have hfront : ¬ marker <+: c :: (before ++ marker ++ after) := by
      intro hp
      obtain ⟨rfl, hsecond⟩ := List.cons_prefix_cons.1 hp
      cases before with
      | nil => simp [marker] at hsecond
      | cons d before =>
        obtain rfl : ']' = d := (List.cons_prefix_cons.1 hsecond).1
        exact h ⟨[], before, rfl⟩
    rw [List.cons_append, List.cons_append, cutAt?,
      if_neg (mt List.isPrefixOf_iff_prefix.1 hfront), ih hbefore]
    rfl

/-- The blanks at the ends of a key are those of its two parts. -/
theorem trimmed_marked (before after : List Char) :
    trimmed (before ++ marker ++ after) = dropBlanks before ++ marker ++ dropBlanksEnd after := by
  calc trimmed (before ++ marker ++ after)
      = dropBlanksEnd (dropBlanks (before ++ '[' :: ']' :: after)) := by simp [trimmed, marker]
    _ = dropBlanksEnd ((dropBlanks before ++ ['[']) ++ ']' :: after) := by
        rw [dropBlanks_append_cons (by decide)]; simp
    _ = dropBlanks before ++ marker ++ dropBlanksEnd after := by
        rw [dropBlanksEnd_append_cons (by decide)]; simp [marker]

/-- The path of the list in a key that is put together: the dots at its end are cut. -/
def listPart (path : String) : String :=
  String.ofList ((dropBlanks path.toList).rdropWhile (· = '.'))

/-- The path inside each item: the dots at its front are cut. -/
def itemPart (inside : String) : String :=
  String.ofList ((dropBlanksEnd inside.toList).dropWhile (· = '.'))

theorem splitRepeating?_joined {path : String} (h : ¬ marker <:+: path.toList) (inside : String) :
    splitRepeating? (path ++ "[]" ++ inside) = some (listPart path, itemPart inside) := by
  have hlist : (path ++ "[]" ++ inside).toList = path.toList ++ marker ++ inside.toList := by
    simp [marker]
  have hpath : ¬ marker <:+: dropBlanks path.toList :=
    fun hmark => h (hmark.trans (List.dropWhile_suffix isBlank).isInfix)
  rw [splitRepeating?, hlist, trimmed_marked, cutAt?_marker hpath]
  rfl

theorem filler_of_blank {c : Char} (h : isBlank c = true) : IsFiller '.' c := Or.inr h

theorem filler_of_dot {c : Char} (h : decide (c = '.') = true) : IsFiller '.' c :=
  Or.inl (of_decide_eq_true h)

/-- Both parts have the names of what they are cut from. -/
theorem names_listPart (path : String) :
    names '.' (listPart path).toList = names '.' path.toList := by
  rw [listPart, String.toList_ofList, names_rdropWhile fun _ => filler_of_dot, dropBlanks,
    names_dropWhile fun _ => filler_of_blank]

theorem names_itemPart (inside : String) :
    names '.' (itemPart inside).toList = names '.' inside.toList := by
  rw [itemPart, String.toList_ofList, names_dropWhile fun _ => filler_of_dot]
  exact names_rdropWhile (fun _ => filler_of_blank) _

/-- What a repeating key addresses: the items of the list at its first path, each followed along the
    second one. -/
theorem rows_joined (v : Value) {path : String} (hmark : ¬ marker <:+: path.toList)
    (hname : ∃ c ∈ path.toList, ¬ IsFiller '.' c) (inside : String) :
    v.rows (path ++ "[]" ++ inside) = match v.resolve path with
      | some (.list items) => items.map fun item => item.resolve inside
      | _ => [] := by
  have hlist : ¬ (listPart path).isEmpty := by
    intro hempty
    have hnil : names '.' path.toList = [] := by
      rw [← names_listPart, String.isEmpty_iff.1 hempty]
      rfl
    obtain ⟨c, hc, hfiller⟩ := hname
    exact hfiller (names_eq_nil_iff.1 hnil c hc)
  have hitem (item : Value) : (if (itemPart inside).isEmpty then some item
      else item.resolve (itemPart inside)) = item.resolve inside := by
    rw [← resolve_congr (names_itemPart inside) item]
    split
    · next hempty => rw [String.isEmpty_iff.1 hempty]; rfl
    · rfl
  rw [Value.rows, splitRepeating?_joined hmark, ← resolve_congr (names_listPart path) v]
  rcases hlead : v.resolve (listPart path) with _ | _ | _ | _ <;>
    simp only [hlead, hlist, Bool.false_eq_true, if_false, hitem]

/-! ## Dots around the marker -/

/-- Dots in a row. -/
def dots (n : Nat) : String :=
  String.ofList (List.replicate n '.')

theorem filler_of_mem_dots {n : Nat} {c : Char} (h : c ∈ (dots n).toList) : IsFiller '.' c := by
  rw [dots, String.toList_ofList] at h
  exact Or.inl (List.eq_of_mem_replicate h)

theorem not_marker_infix_dots {cs : List Char} (h : ¬ marker <:+: cs) (n : Nat) :
    ¬ marker <:+: cs ++ List.replicate n '.' := by
  induction n with
  | zero => simpa using h
  | succ n ih =>
    rw [List.replicate_succ', ← List.append_assoc]
    intro hmark
    rcases List.infix_concat_iff.1 hmark with hmark | hmark
    · rcases List.suffix_concat_iff.1 hmark with hnil | ⟨t, hlast, -⟩
      · cases hnil
      · simpa [marker] using congrArg List.getLast? hlast
    · exact ih hmark

/-- Dots on either side of the marker belong to the two paths, where they do not count. -/
theorem rows_dotted (v : Value) {path : String} (hmark : ¬ marker <:+: path.toList)
    (hname : ∃ c ∈ path.toList, ¬ IsFiller '.' c) (m n : Nat) (inside : String) :
    v.rows (path ++ dots m ++ "[]" ++ dots n ++ inside) = match v.resolve path with
      | some (.list items) => items.map fun item => item.resolve inside
      | _ => [] := by
  obtain ⟨c, hc, hfiller⟩ := hname
  have hmark' : ¬ marker <:+: (path ++ dots m).toList := by
    simpa [dots] using not_marker_infix_dots hmark m
  have hpath : v.resolve (path ++ dots m) = v.resolve path := by
    refine resolve_congr ?_ v
    rw [String.toList_append, names_append_filler fun _ => filler_of_mem_dots]
  have hinside (item : Value) : item.resolve (dots n ++ inside) = item.resolve inside := by
    refine resolve_congr ?_ item
    rw [String.toList_append, names_filler_append fun _ => filler_of_mem_dots]
  have hkey : path ++ dots m ++ "[]" ++ dots n ++ inside =
      path ++ dots m ++ "[]" ++ (dots n ++ inside) := String.append_assoc
  rw [hkey, rows_joined v hmark' ⟨c, by simp [hc], hfiller⟩, hpath]
  simp only [hinside]

/-! ## All together -/

/-- **Paths compose.**  A path joined to another by a dot is walked after it.  Dots, blank names and
    blanks around names may be added to a path without changing where it leads.  A key is repeating
    exactly when it can be taken apart.  A repeating key that is put together from the path of a
    list, with a name in it and no marker, and the path inside each item, with any number of dots on
    either side of the marker, addresses nothing unless the first path leads to a list, and else
    what the second one leads to in each item, in order; that is the item itself when the second
    path is blank. -/
theorem paths_compose :
    (∀ (v : Value) (path more : String),
      v.resolve (path ++ "." ++ more) = (v.resolve path).bind fun next => next.resolve more) ∧
    (∀ (v : Value) (before filler after : String), (∀ c ∈ filler.toList, IsFiller '.' c) →
      Between before after → v.resolve (before ++ filler ++ after) = v.resolve (before ++ after)) ∧
    (∀ key, isRepeating key = (splitRepeating? key).isSome) ∧
    (∀ (v : Value) (path inside : String) (m n : Nat), ¬ marker <:+: path.toList →
      (∃ c ∈ path.toList, ¬ IsFiller '.' c) →
      v.rows (path ++ dots m ++ "[]" ++ dots n ++ inside) = match v.resolve path with
        | some (.list items) => items.map fun item => item.resolve inside
        | _ => []) ∧
    ∀ (item : Value) (inside : String), isBlankText inside → item.resolve inside = some item := by
  refine ⟨resolve_append, fun v before filler after hfiller h => resolve_insert v hfiller h,
    isRepeating_eq, fun v path inside m n hmark hname => rows_dotted v hmark hname m n inside,
    fun item inside hblank => resolve_filler (fun c hc => Or.inr ?_) item⟩
  by_contra hleft
  have hmem : c ∈ trimmed inside.toList := mem_trimmed (Bool.not_eq_true _ ▸ hleft) hc
  exact List.ne_nil_of_mem hmem (List.isEmpty_iff.1 hblank)

/-- A payload with a list of two items, of which the second lacks a name. -/
def sampleItems : Value :=
  .record [("shipment", .record [("items", .list [
    .record [("name", .ofText "Gloves")], .record [("colour", .ofText "red")]])])]

theorem sample_paths_compose :
    (∀ c ∈ ". \t".toList, IsFiller '.' c) ∧ Between "shipment" " .items" ∧
    sampleItems.resolve "shipment. \t .items" = sampleItems.resolve "shipment .items" ∧
    ¬ marker <:+: "shipment.items".toList ∧
    (∃ c ∈ "shipment.items".toList, ¬ IsFiller '.' c) ∧
    sampleItems.rows "shipment.items..[].name" = [some (.ofText "Gloves"), none] := by
  have hfiller : ∀ c ∈ ". \t".toList, IsFiller '.' c := by simp [IsFiller, isBlank]
  have hbetween : Between "shipment" " .items" := Or.inr (by simp [dropBlanks, isBlank])
  have hmark : ¬ marker <:+: "shipment.items".toList := by decide
  have hname : ∃ c ∈ "shipment.items".toList, ¬ IsFiller '.' c := by simp [IsFiller, isBlank]
  obtain ⟨-, hinsert, -, hrows, -⟩ := paths_compose
  refine ⟨hfiller, hbetween, hinsert sampleItems "shipment" ". \t" " .items" hfiller hbetween,
    hmark, hname, (hrows sampleItems "shipment.items" "name" 2 1 hmark hname).trans ?_⟩
  rfl

end Waybill.Payload
