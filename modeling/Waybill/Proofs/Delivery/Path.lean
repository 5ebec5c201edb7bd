/-
  The paths of artifacts, told apart.

  * `nameStem` is what a file name keeps of the code of a pack.

  Statements: `remotePath_eq_iff` (two paths below one folder are one exactly when folders and names
  are), `pdfName_eq_iff` (names that generations gave are one exactly when the stems are, and the
  seconds).
-/
import Waybill.Delivery.Path
import Waybill.Proofs.Calendar.Stamp
import Waybill.Proofs.Generation.Artifact

namespace Waybill.Delivery

open Waybill.Text Waybill.Generation

/-! ## Separators -/

section
variable {α : Type} [DecidableEq α] {c : α} {xs xs' ys ys' : List α}

/-- A list is told apart at the first of its separators. -/
theorem eq_of_append_cons (hx : c ∉ xs) (hx' : c ∉ xs') (h : xs ++ c :: ys = xs' ++ c :: ys') :
    xs = xs' ∧ ys = ys' := by
  have hfirst : ∀ {zs ws : List α}, c ∉ zs → (zs ++ c :: ws).takeWhile (· ≠ c) = zs := by
    intro zs ws hz
    rw [List.takeWhile_append_of_pos fun a ha => decide_eq_true (ne_of_mem_of_not_mem ha hz),
      List.takeWhile_cons_of_neg (by simp), List.append_nil]
  obtain rfl : xs = xs' := by rw [← hfirst hx, h, hfirst hx']
  exact ⟨rfl, List.cons_injective (List.append_cancel_left h)⟩

/-- A list is told apart at the last of its separators. -/
theorem eq_of_append_cons_last (hy : c ∉ ys) (hy' : c ∉ ys')
    (h : xs ++ c :: ys = xs' ++ c :: ys') : xs = xs' ∧ ys = ys' := by
  have hreverse : ys.reverse ++ c :: xs.reverse = ys'.reverse ++ c :: xs'.reverse := by
    simpa using congrArg List.reverse h
  obtain ⟨hys, hxs⟩ := eq_of_append_cons (by simpa using hy) (by simpa using hy') hreverse
  exact ⟨List.reverse_injective hxs, List.reverse_injective hys⟩

end

/-! ## Paths -/

/-- The folders of an artifact are two, and the first has no slash in its name. -/
theorem exists_folders (a : Artifact) :
    ∃ first second, folders a = [first, second] ∧ '/' ∉ first.toList := by
  unfold folders
  split <;> exact ⟨_, _, rfl, by decide⟩

/-- What stands before the folders in a path. -/
def below (dir : String) : String :=
  let base := String.ofList (stripEnds '/' (trimmed dir.toList))
  if base.isEmpty then "" else base ++ "/"

theorem remotePath_of_folders {a : Artifact} {first second : String}
    (h : folders a = [first, second]) (dir : String) :
    remotePath a dir = below dir ++ (first ++ "/" ++ (second ++ "/" ++ pdfName a)) := by
  unfold remotePath below
  rw [h]
  dsimp only
  split <;> simp [String.intercalate_cons_cons, String.append_assoc]

/-- **Two paths below one folder are one exactly when the folders and the names are.** -/
theorem remotePath_eq_iff {a b : Artifact} (ha : '/' ∉ (pdfName a).toList)
    (hb : '/' ∉ (pdfName b).toList) (dir : String) :
    remotePath a dir = remotePath b dir ↔ folders a = folders b ∧ pdfName a = pdfName b := by
  obtain ⟨first, second, hfolders, hfirst⟩ := exists_folders a
  obtain ⟨first', second', hfolders', hfirst'⟩ := exists_folders b
  rw [remotePath_of_folders hfolders, remotePath_of_folders hfolders', hfolders, hfolders']
  constructor
  · intro h
    have h := congrArg String.toList h
    simp only [String.toList_append, List.append_assoc] at h
    -- the first slash below the folder ends the first name, the last one the second
    obtain ⟨hfirst, hrest⟩ := eq_of_append_cons hfirst hfirst' (List.append_cancel_left h)
    obtain ⟨hsecond, hname⟩ := eq_of_append_cons_last ha hb hrest
    rw [String.toList_injective hfirst, String.toList_injective hsecond,
      String.toList_injective hname]
    exact ⟨rfl, rfl⟩
  · rintro ⟨h, hname⟩
    obtain ⟨rfl, rfl⟩ : first = first' ∧ second = second' := by simpa using h
    rw [hname]

/-! ## Names -/

/-- The character is a slash of either kind. -/
def isSlash (c : Char) : Bool :=
  c == '/' || c == '\\'

/-- What a file name keeps of the code of a pack. -/
def nameStem (code : String) : List Char :=
  afterSlashes ("print-pack-" ++ code).toList

theorem afterSlashes_append (xs : List Char) {ys : List Char} (h : ∀ c ∈ ys, isSlash c = false) :
    afterSlashes (xs ++ ys) = afterSlashes xs ++ ys := by
  unfold afterSlashes
  rw [List.reverse_append, List.takeWhile_append_of_pos, List.reverse_append, List.reverse_reverse]
  intro c hc
  have hslash := h c (List.mem_reverse.1 hc)
  simp_all [isSlash]

theorem isSlash_of_mem_afterSlashes {cs : List Char} {c : Char} (h : c ∈ afterSlashes cs) :
    isSlash c = false := by
  have hc := List.mem_takeWhile_imp (List.mem_reverse.1 h)
  simp_all [isSlash]

theorem trimmed_of_ends {c d : Char} (hc : isBlank c = false) (hd : isBlank d = false)
    (cs : List Char) : trimmed (c :: cs ++ [d]) = c :: cs ++ [d] := by
  unfold trimmed dropBlanks dropBlanksEnd
  rw [List.cons_append, List.dropWhile_cons_of_neg (by simp [hc])]
  simp [hd]

theorem isPdfName_append (cs : List Char) :
    isPdfName (String.ofList (cs ++ ".pdf".toList)) = true := by
  unfold isPdfName hasEnding
  simp

/-- What follows the code of a pack in the name of a file. -/
def nameEnd (now : Calendar.Instant) : List Char :=
  '-' :: (now.stamp.toList ++ ".pdf".toList)

theorem isSlash_of_mem_nameEnd {now : Calendar.Instant} {c : Char} (h : c ∈ nameEnd now) :
    isSlash c = false := by
  simp only [nameEnd, List.mem_cons, List.mem_append] at h
  rcases h with rfl | h | h
  · decide
  · rcases Calendar.Instant.mem_stamp h with h | rfl | ⟨rfl, -⟩
    · cases hc : isSlash c with
      | false => rfl
      | true =>
        simp only [isSlash, Bool.or_eq_true, beq_iff_eq] at hc
        rcases hc with rfl | rfl <;> cases h
    · decide
    · decide
  · simp only [String.reduceToList, List.mem_cons, List.not_mem_nil, or_false] at h
    rcases h with rfl | rfl | rfl | rfl <;> decide

section
variable {a b : Artifact} {now now' : Calendar.Instant}

/-- What a generation's name comes to on the drive. -/
theorem toList_pdfName (h : a.pdfName = some (fileName a.packCode now)) :
    (pdfName a).toList = nameStem a.packCode ++ nameEnd now := by
  have hends : (fileName a.packCode now).toList = 'p' :: ("rint-pack-".toList ++
      a.packCode.toList ++ '-' :: (now.stamp.toList ++ ".pd".toList)) ++ ['f'] := by
    simp [fileName]
  have hparts : (fileName a.packCode now).toList =
      ("print-pack-" ++ a.packCode).toList ++ nameEnd now := by
    simp [fileName, nameEnd]
  have hlast : afterSlashes (trimmed (a.pdfName.getD "").toList) =
      nameStem a.packCode ++ nameEnd now := by
    rw [h, Option.getD_some, hends, trimmed_of_ends (by decide) (by decide), ← hends, hparts,
      afterSlashes_append _ fun _ => isSlash_of_mem_nameEnd]
    rfl
  have hpdf : isPdfName (String.ofList (nameStem a.packCode ++ nameEnd now)) = true := by
    rw [nameEnd, ← List.cons_append, ← List.append_assoc]
    exact isPdfName_append _
  have hfilled : (String.ofList (nameStem a.packCode ++ nameEnd now)).isEmpty = false := by
    simp [nameEnd]
  unfold pdfName
  simp only [hlast, hfilled, hpdf, Bool.false_eq_true, ↓reduceIte, String.toList_ofList]

theorem slash_not_mem_pdfName (h : a.pdfName = some (fileName a.packCode now)) :
    '/' ∉ (pdfName a).toList := by
  rw [toList_pdfName h]
  intro hmem
  rcases List.mem_append.1 hmem with hmem | hmem
  · exact absurd (isSlash_of_mem_afterSlashes hmem) (by decide)
  · exact absurd (isSlash_of_mem_nameEnd hmem) (by decide)

/-- **Names that generations gave are one exactly when what they keep of the pack is, and the
    second.** -/
theorem pdfName_eq_iff (ha : a.pdfName = some (fileName a.packCode now))
    (hb : b.pdfName = some (fileName b.packCode now')) (hyear : 0 ≤ now.moment.date.year)
    (hyear' : 0 ≤ now'.moment.date.year) :
    pdfName a = pdfName b ↔
      nameStem a.packCode = nameStem b.packCode ∧ now.toSecond = now'.toSecond := by
  have hhyphen : ∀ {i : Calendar.Instant}, 0 ≤ i.moment.date.year →
      '-' ∉ i.stamp.toList ++ ".pdf".toList := by
    intro i hi hmem
    rcases List.mem_append.1 hmem with hmem | hmem
    · rcases Calendar.Instant.mem_stamp hmem with h | h | ⟨-, h⟩
      · cases h
      · cases h
      · omega
    · revert hmem
      decide
  rw [← String.toList_inj, toList_pdfName ha, toList_pdfName hb]
  constructor
  · intro h
    obtain ⟨hstem, hend⟩ := eq_of_append_cons_last (hhyphen hyear) (hhyphen hyear') h
    have hstamp := String.toList_injective (List.append_cancel_right hend)
    exact ⟨hstem, Calendar.Instant.stamp_eq_iff.1 hstamp⟩
  · rintro ⟨hstem, hsecond⟩
    rw [hstem, nameEnd, nameEnd, Calendar.Instant.stamp_eq_iff.2 hsecond]

end

end Waybill.Delivery
