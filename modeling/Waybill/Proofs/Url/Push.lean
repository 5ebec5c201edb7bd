/-
  Segments that are added to a URL.

  A segment is written so that no slash is left in it, and it is read back.  The segments for the
  place itself and the place above are passed over when they are added.  But tabs and line ends are
  dropped only after that, so a segment that hides two dots still leads to the place above.

  * `kept`: a segment without the tabs and line ends in it, and `written`: as it stands in a path;
  * `IsDots`: a segment for the place itself or the place above;
  * `Hides`: a segment that is one of these only once tabs and line ends are dropped;
  * `Plain`: a segment that is not dots and has no tabs and line ends in it;
  * `trunk`: the segments of a URL that others are added to.

  Statements: `decode_written` (a plain segment is read back), `pushOne_written` (one segment is
  added), `push?_written` (all of them are), `segments_inj` (the text of a path tells its segments).
-/
import Waybill.Proofs.Text.Split
import Waybill.Proofs.Url.Percent

namespace Waybill.Url

/-! ## One segment -/

/-- The characters of a segment that a URL keeps. -/
def kept (segment : String) : List Char :=
  segment.toList.filter fun c => !isDropped c

/-- A segment as it stands in the path of a URL. -/
def written (scheme segment : String) : String :=
  String.ofList (Percent.encode (Percent.inSegment (isSpecial scheme)) (kept segment))

/-- A segment for the place itself or the place above. -/
def IsDots (segment : String) : Prop :=
  segment = "." ∨ segment = ".."

instance : DecidablePred IsDots :=
  fun _ => inferInstanceAs (Decidable (_ ∨ _))

/-- A segment that reads as dots only once tabs and line ends are dropped. -/
def Hides (segment : String) : Prop :=
  ¬IsDots segment ∧ IsDots (String.ofList (kept segment))

instance : DecidablePred Hides :=
  fun _ => inferInstanceAs (Decidable (_ ∧ _))

/-- A segment that is not dots and has nothing in it that a URL drops. -/
structure Plain (segment : String) : Prop where
  notDots : ¬IsDots segment
  whole : ∀ c ∈ segment.toList, ¬isDropped c

variable {segment : String}

theorem Plain.kept_eq (h : Plain segment) : kept segment = segment.toList :=
  List.filter_eq_self.2 fun c hc => by simpa using h.whole c hc

theorem Plain.not_hides (h : Plain segment) : ¬Hides segment := by
  rintro ⟨hdots, hkept⟩
  rw [h.kept_eq, String.ofList_toList] at hkept
  exact hdots hkept

/-- There is nothing but dots in a segment of dots. -/
theorem not_isDots_of_mem {c : Char} (hc : c ≠ '.') (h : c ∈ segment.toList) : ¬IsDots segment := by
  rintro (rfl | rfl) <;> simp_all

theorem not_hides_of_mem {c : Char} (hc : c ≠ '.') (hkept : isDropped c = false)
    (h : c ∈ segment.toList) : ¬Hides segment := by
  refine fun hhides => not_isDots_of_mem hc ?_ hhides.2
  rw [String.toList_ofList]
  exact List.mem_filter.2 ⟨h, by simp [hkept]⟩

theorem inSegment_percent (special : Bool) : Percent.inSegment special '%' = true := by
  simp [Percent.inSegment]

theorem inSegment_dot (special : Bool) : Percent.inSegment special '.' = false := by
  simp [Percent.inSegment, Percent.inPath, Percent.inFragment, Percent.isControl]

theorem inSegment_slash (special : Bool) : Percent.inSegment special '/' = true := by
  simp [Percent.inSegment]

theorem isHere_written {scheme : String} :
    isHere (written scheme segment).toList ↔ String.ofList (kept segment) = "." := by
  rw [written, String.toList_ofList, Percent.isHere_encode (inSegment_percent _) (inSegment_dot _),
    ← String.toList_inj, String.toList_ofList]
  rfl

theorem isAbove_written {scheme : String} :
    isAbove (written scheme segment).toList ↔ String.ofList (kept segment) = ".." := by
  rw [written, String.toList_ofList, Percent.isAbove_encode (inSegment_percent _) (inSegment_dot _),
    ← String.toList_inj, String.toList_ofList]
  rfl

theorem slash_not_mem_written (scheme segment : String) :
    '/' ∉ (written scheme segment).toList := by
  have hdigit : ∀ m : Fin 16, '/' ≠ Percent.hexDigit m.val := by decide
  rw [written, String.toList_ofList]
  exact Percent.not_mem_encode (inSegment_slash _) (by decide) (fun n hn => hdigit ⟨n, hn⟩) _

/-- A segment that is not dots is not written as one, unless it hides them. -/
theorem written_not_dots (scheme : String) (hdots : ¬IsDots segment) (hhides : ¬Hides segment) :
    ¬isHere (written scheme segment).toList ∧ ¬isAbove (written scheme segment).toList := by
  have hkept : ¬IsDots (String.ofList (kept segment)) := fun h => hhides ⟨hdots, h⟩
  exact ⟨fun h => hkept (Or.inl (isHere_written.1 h)),
    fun h => hkept (Or.inr (isAbove_written.1 h))⟩

/-- **A plain segment is read back.** -/
theorem Plain.decode_written (h : Plain segment) (scheme : String) :
    (Percent.decode (written scheme segment).toList).toByteArray = segment.toUTF8 := by
  rw [written, String.toList_ofList, h.kept_eq]
  exact Percent.toByteArray_decode_encode (inSegment_percent _) segment

theorem decode_map_written (scheme : String) {segments : List String}
    (h : ∀ s ∈ segments, Plain s) :
    (segments.map (written scheme)).map (fun s => (Percent.decode s.toList).toByteArray) =
      segments.map String.toUTF8 := by
  rw [List.map_map]
  refine List.map_congr_left fun s hs => ?_
  rw [Function.comp_apply, (h s hs).decode_written scheme]

theorem inSegment_colon (special : Bool) : Percent.inSegment special ':' = false := by
  simp [Percent.inSegment, Percent.inPath, Percent.inFragment, Percent.isControl]

/-- A colon is written as it is. -/
theorem written_append_colon (scheme segment : String) :
    written scheme (segment ++ ":") = written scheme segment ++ ":" := by
  have hkept : kept (segment ++ ":") = kept segment ++ [':'] := by
    rw [kept, String.toList_append, List.filter_append]
    rfl
  have hcolon : Percent.encode (Percent.inSegment (isSpecial scheme)) [':'] = [':'] := by
    simp [Percent.encode, Percent.encodedChar, inSegment_colon]
  rw [written, hkept, Percent.encode_append, hcolon, String.ofList_append]
  rfl

/-! ## Adding segments -/

variable {scheme : String} {path : List String}

theorem pushOne_of_isDots (h : IsDots segment) :
    pushOne scheme path segment = path := by
  rcases h with rfl | rfl <;> rfl

/-- A segment is added at the end of the path, which is nothing when it is one empty segment. -/
theorem pushOne_written (hscheme : scheme ≠ "file") (hdots : ¬IsDots segment)
    (hhides : ¬Hides segment) :
    pushOne scheme path segment =
      (if path = [""] then [] else path) ++ [written scheme segment] := by
  obtain ⟨hhere, habove⟩ := written_not_dots scheme hdots hhides
  rw [written, String.toList_ofList] at habove hhere
  unfold pushOne
  rw [if_neg (by simpa [IsDots] using hdots)]
  simp only [hscheme, decide_false, settled, entered, appended]
  rw [← kept, if_neg habove, if_neg hhere]
  rfl

/-- Segments are added one after the other, but for those that are dots. -/
theorem foldl_pushOne (hscheme : scheme ≠ "file") {segments : List String}
    (h : ∀ s ∈ segments, ¬Hides s) (hpath : ∃ s ∈ path, s ≠ "") :
    segments.foldl (pushOne scheme) path =
      path ++ (segments.filter fun s => ¬IsDots s).map (written scheme) := by
  induction segments generalizing path with
  | nil => exact (List.append_nil path).symm
  | cons s segments ih =>
    obtain ⟨hs, hsegments⟩ := List.forall_mem_cons.1 h
    rw [List.foldl_cons]
    by_cases hdots : IsDots s
    · rw [pushOne_of_isDots hdots, ih hsegments hpath,
        List.filter_cons_of_neg (by simpa using hdots)]
    · obtain ⟨t, ht, htne⟩ := hpath
      have hroom : path ≠ [""] := by
        rintro rfl
        exact htne (List.mem_singleton.1 ht)
      rw [pushOne_written hscheme hdots hs, if_neg hroom,
        ih hsegments ⟨t, List.mem_append_left _ ht, htne⟩,
        List.filter_cons_of_pos (by simpa using hdots), List.append_assoc]
      rfl

/-- The segments of a URL that others are added to: all but an empty one at the end, and none of two
    that are empty. -/
def trunk (list : List String) : List String :=
  if list = ["", ""] then [] else if list.getLast? = some "" then list.dropLast else list

theorem room_withoutEmptyEnd (list : List String) :
    (if withoutEmptyEnd list = [""] then [] else withoutEmptyEnd list) = trunk list := by
  unfold trunk withoutEmptyEnd
  rcases list with _ | ⟨x, _ | ⟨y, rest⟩⟩
  · rfl
  · by_cases hx : x = "" <;> simp [hx]
  · by_cases hlast : (y :: rest).getLast? = some ""
    · rcases rest with _ | ⟨z, rest⟩
      · obtain rfl : y = "" := by simpa using hlast
        by_cases hx : x = "" <;> simp [hx]
      · simp_all
    · have hpair : x :: y :: rest ≠ ["", ""] := by
        rintro h
        obtain ⟨-, rfl, rfl⟩ := by simpa using h
        exact hlast rfl
      simp_all

/-- **Segments are added to the trunk of a URL, each as it is written.**  The first of them must not
    be dots, nor empty. -/
theorem push?_written {u : Url} {list : List String} (hauthority : u.authority.isSome)
    (hpath : u.path = .segments list) (hscheme : u.scheme ≠ "file") {first : String}
    (hdots : ¬IsDots first) (hempty : written u.scheme first ≠ "") {segments : List String}
    (h : ∀ s ∈ first :: segments, ¬Hides s) :
    u.push? (first :: segments) = some { u with
      path := .segments (trunk list ++
        ((first :: segments).filter fun s => ¬IsDots s).map (written u.scheme)) } := by
  obtain ⟨hfirst, hsegments⟩ := List.forall_mem_cons.1 h
  have hnone : ¬(u.authority.isNone && list.isEmpty) := by
    simp [Option.isNone_eq_false_iff.2 hauthority]
  unfold push?
  simp only [hpath, hnone]
  have hmem : ∃ s ∈ trunk list ++ [written u.scheme first], s ≠ "" := ⟨_, by simp, hempty⟩
  rw [List.foldl_cons, pushOne_written hscheme hdots hfirst, room_withoutEmptyEnd,
    foldl_pushOne hscheme hsegments hmem,
    List.filter_cons_of_pos (by simpa using hdots), List.append_assoc]
  rfl

/-! ## Text -/

theorem toList_text_segments (list : List String) :
    (Path.segments list).text.toList = list.flatMap fun s => '/' :: s.toList := by
  rw [Path.text, String.toList_join, List.flatMap_map]
  exact List.flatMap_congr fun s _ => by simp

/-- The segments are what stands after the slashes. -/
theorem splitOn_flatMap {list : List (List Char)} (h : ∀ s ∈ list, '/' ∉ s) {piece : List Char}
    (hpiece : '/' ∉ piece) :
    Text.splitOn '/' (piece ++ list.flatMap ('/' :: ·)) = piece :: list := by
  induction list generalizing piece with
  | nil => rw [List.flatMap_nil, List.append_nil, Text.splitOn_of_not_mem hpiece]
  | cons s list ih =>
    obtain ⟨hs, hlist⟩ := List.forall_mem_cons.1 h
    rw [List.flatMap_cons, List.cons_append, Text.splitOn_append_cons,
      Text.splitOn_of_not_mem hpiece, ih hlist hs, List.singleton_append]

/-- **The text of a path tells its segments**, when there is no slash in them. -/
theorem segments_inj {list other : List String} (hlist : ∀ s ∈ list, '/' ∉ s.toList)
    (hother : ∀ s ∈ other, '/' ∉ s.toList)
    (h : (Path.segments list).text = (Path.segments other).text) : list = other := by
  have hsplit {list : List String} (hlist : ∀ s ∈ list, '/' ∉ s.toList) :
      Text.splitOn '/' (Path.segments list).text.toList = [] :: list.map String.toList := by
    rw [toList_text_segments, ← List.flatMap_map]
    exact splitOn_flatMap (by simpa using hlist) List.not_mem_nil
  have hpieces := hsplit hlist
  rw [h, hsplit hother] at hpieces
  exact (List.map_injective_iff.2 fun s t => String.toList_inj.1) (List.cons.inj hpieces).2.symm

theorem text_segments_append (list other : List String) :
    (Path.segments (list ++ other)).text =
      (Path.segments list).text ++ (Path.segments other).text := by
  rw [← String.toList_inj, String.toList_append, toList_text_segments, toList_text_segments,
    toList_text_segments, List.flatMap_append]

/-- URLs that differ in their paths only have the same text only if their paths have. -/
theorem path_text_inj {u : Url} (hauthority : u.authority.isSome) {p q : Path}
    (h : ({ u with path := p } : Url).text = ({ u with path := q } : Url).text) :
    p.text = q.text := by
  obtain ⟨a, ha⟩ := Option.isSome_iff_exists.1 hauthority
  simpa [text, guardText, ha] using h

end Waybill.Url
