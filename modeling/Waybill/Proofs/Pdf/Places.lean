/-
  The places of objects in a file.

  A file ends in a stream with the place of each object, and in the place of that stream.  Reading
  goes the other way: from the end to the stream, and from the stream to the objects.

  * `Object.isStorable` are the objects that are read as what they are;
  * `StandsAt`: an object stands at a place of a file;
  * `placesDict` and `placeBytes` are what the stream of places holds, `ending` the last lines.

  Statements: `indirect?_written` (an object is read with its reference), `standsAt_writtenObjects`
  (each object stands at its place), `streamTable?_placesStream` (the stream is read as the table
  of places), `tablePlace?_ending` and `version?_written` (the last lines and the first),
  `assembled_eq` (what stands in a file is found in it).
-/
import Mathlib
import Waybill.Pdf.Reader
import Waybill.Pdf.Writer
import Waybill.Proofs.Pdf.Values

namespace Waybill.Pdf

/-! ## Objects in a file -/

/-- Whether an object is read again once it is written: a stream tells how long it is. -/
def Object.isStorable : Object → Bool
  | .stream entries content =>
    haveLegible entries && Dict.get? "Length" entries = some (.int content.length)
  | o => o.isLegible

theorem Object.isStorable_iff {o : Object} : o.isStorable = true ↔ o.isLegible = true ∨
    ∃ entries content, o = .stream entries content ∧ haveLegible entries = true ∧
      Dict.get? "Length" entries = some (.int content.length) := by
  cases o <;> simp [isStorable, isLegible]

/-- The text from the end of an object on. -/
def closing (close : Bool) (rest : List Char) : List Char :=
  (if close then [' '] else []) ++ '\n' :: ("endobj".toList ++ '\n' :: rest)

/-- The text from the end of the entries of a stream on. -/
def body (content : List UInt8) (rest : List Char) : List Char :=
  "stream".toList ++ '\n' :: (Text.Octets.ofBytes content ++ '\n' :: ("endstream".toList ++ rest))

theorem exists_closing (r : Ref) (o : Object) (rest : List Char) :
    ∃ close, writtenObject r o ++ rest = Nat.toDigits 10 r.number ++
      ' ' :: (Nat.toDigits 10 r.generation ++ ' ' :: ("obj".toList ++ '\n' ::
        (written o ++ closing close rest))) := by
  cases o with
  | string | array | dict =>
    exact ⟨false, by simp [writtenObject, needsBlank, closing]⟩
  | _ => exact ⟨true, by simp [writtenObject, needsBlank, closing]⟩

theorem written_stream (entries : Dict) (content : List UInt8) (rest : List Char) :
    written (.stream entries content) ++ rest = written (.dict entries) ++ body content rest := by
  simp [written, body]

theorem skipSpace_stream (entries : Dict) (content : List UInt8) (rest : List Char) :
    skipSpace (written (.stream entries content) ++ rest) =
      written (.stream entries content) ++ rest :=
  skipSpace_of_not_isBlank (by decide) (by decide) _

theorem skipSpace_word {word : String} {c : Char} {cs : List Char} (hword : word.toList = c :: cs)
    (hblank : isBlank c = false) (hc : c ≠ '%') (rest : List Char) :
    skipSpace (word.toList ++ rest) = word.toList ++ rest := by
  rw [hword, List.cons_append, skipSpace_of_not_isBlank hblank hc]

theorem tag?_append (word : String) (rest : List Char) :
    tag? word (word.toList ++ rest) = some rest := by
  rw [tag?, if_pos (List.isPrefixOf_iff_prefix.2 (List.prefix_append _ _)), ← String.length_toList,
    List.drop_left]

theorem skipSpace_closing (close : Bool) (rest : List Char) :
    skipSpace (closing close rest) = "endobj".toList ++ '\n' :: rest := by
  have hend : skipSpace ('\n' :: ("endobj".toList ++ '\n' :: rest)) =
      "endobj".toList ++ '\n' :: rest := by
    have hword : "endobj".toList = 'e' :: ['n', 'd', 'o', 'b', 'j'] := rfl
    rw [skipSpace_of_isBlank (by decide), skipSpace_word hword (by decide) (by decide)]
  cases close with
  | false => exact hend
  | true => exact (skipSpace_of_isBlank (by decide) _).trans hend

theorem apart_closing (close : Bool) (rest : List Char) : Apart (closing close rest) where
  ends := by
    cases close <;> rintro c ⟨⟩ <;> decide
  no_mark := by
    rw [skipSpace_closing]
    exact tag?_eq_none (by decide) (by decide)
  no_number b n cs h := by
    have hword : "endobj".toList = 'e' :: ['n', 'd', 'o', 'b', 'j'] := rfl
    rw [skipSpace_closing, hword, List.cons_append,
      digits?_eq_none (not_isDigit_cons (by decide) _)] at h
    cases h

theorem objectAt?_value {o : Object} (h : o.isLegible = true) (lengthOf : Object → Option Int)
    (close : Bool) (rest : List Char) :
    objectAt? lengthOf (written o ++ closing close rest) = some (o, none) := by
  have hstream : tag? "stream" (skipSpace (closing close rest)) = none := by
    rw [skipSpace_closing]
    exact tag?_eq_none (by decide) (by decide)
  rw [objectAt?, value?_written h (apart_closing close rest)]
  simp [hstream]

theorem objectAt?_stream {entries : Dict} {content : List UInt8} (h : haveLegible entries = true)
    (hlength : entries.get? "Length" = some (.int content.length))
    {lengthOf : Object → Option Int} (hdirect : ∀ n, lengthOf (.int n) = some n)
    (rest : List Char) : objectAt? lengthOf (written (.stream entries content) ++ rest) =
      some (.stream entries content, none) := by
  have htag : tag? "stream" (skipSpace (body content rest)) = some ('\n' ::
      (Text.Octets.ofBytes content ++ '\n' :: ("endstream".toList ++ rest))) := by
    have hword : "stream".toList = 's' :: ['t', 'r', 'e', 'a', 'm'] := rfl
    rw [body, skipSpace_word hword (by decide) (by decide), tag?_append]
  have hlen : (Text.Octets.ofBytes content).length = content.length :=
    Text.Octets.length_ofBytes content
  rw [written_stream, objectAt?, value?_dict h]
  simp only [Option.bind_eq_bind, Option.bind_some, htag, eol?, hlength, hdirect]
  rw [if_neg (by omega), Int.toNat_natCast, streamOf?, if_neg (by simp [hlen]), ← hlen,
    List.drop_left, List.take_left, Text.Octets.toBytes_ofBytes, hlen, Dict.set_get? hlength]
  simp only [eol?]
  rfl

/-- An object is read with its reference. -/
theorem indirect?_written {r : Ref} {o : Object} (hr : (Object.ref r).isLegible = true)
    (ho : o.isStorable = true) {lengthOf : Object → Option Int}
    (hdirect : ∀ n, lengthOf (.int n) = some n) (rest : List Char) :
    indirect? lengthOf (writtenObject r o ++ rest) = some (r, o, none) := by
  obtain ⟨close, hclose⟩ := exists_closing r o rest
  obtain ⟨c, cs, hcs, hc⟩ := exists_toDigits r.number
  have hspace : ∀ tail, skipSpace (Nat.toDigits 10 r.number ++ tail) =
      Nat.toDigits 10 r.number ++ tail := fun tail => by
    rw [hcs, List.cons_append, skipSpace_of_isDigit hc]
  have hobject : objectAt? lengthOf (skipSpace ('\n' :: (written o ++ closing close rest))) =
      some (o, none) := by
    rw [skipSpace_of_isBlank (by decide)]
    rcases Object.isStorable_iff.1 ho with h | ⟨entries, content, rfl, h, hlength⟩
    · obtain ⟨d, ds, hds, hd⟩ := exists_begins h
      rw [hds, List.cons_append, skipSpace_of_not_isBlank hd.not_blank hd.ne_comment,
        ← List.cons_append, ← hds, objectAt?_value h]
    · rw [skipSpace_stream, objectAt?_stream h hlength hdirect]
  have hword : "obj".toList = 'o' :: ['b', 'j'] := rfl
  rw [indirect?, hclose, hspace, hword, List.cons_append,
    objectId?_written hr (by decide) (by decide), ← List.cons_append, ← hword]
  simp only [Option.bind_eq_bind, Option.bind_some, tag?_append, hobject]
  rfl

/-! ## Bytes of objects -/

theorem lt_of_mem_storable {o : Object} (h : o.isStorable = true) :
    ∀ c ∈ written o, c.toNat < 256 := by
  rcases Object.isStorable_iff.1 h with h | ⟨entries, content, rfl, h, -⟩
  · exact lt_of_mem_written o h
  · have hwritten := written_stream entries content []
    rw [List.append_nil] at hwritten
    simp only [hwritten, body, List.forall_mem_append, List.forall_mem_cons]
    exact ⟨lt_of_mem_written (.dict entries) h, by simp, by simp,
      Text.Octets.lt_of_mem_ofBytes content, by simp, by simp⟩

theorem lt_of_mem_writtenObject (r : Ref) {o : Object} (h : o.isStorable = true) :
    ∀ c ∈ writtenObject r o, c.toNat < 256 := by
  obtain ⟨close, hclose⟩ := exists_closing r o []
  rw [List.append_nil] at hclose
  have hend : ∀ c ∈ closing close [], c.toNat < 256 := by
    cases close <;> simp [closing]
  simp only [hclose, List.forall_mem_append, List.forall_mem_cons]
  exact ⟨lt_of_mem_toDigits _, by simp, lt_of_mem_toDigits _, by simp, by simp, by simp,
    lt_of_mem_storable h, hend⟩

/-! ## Places of objects -/

/-- An object stands at a place of a file. -/
structure StandsAt (file : List Char) (p : Ref × Nat) (e : Ref × Object) : Prop where
  ref : p.1 = e.1
  le : p.2 ≤ file.length
  text : ∃ rest, file.drop p.2 = writtenObject e.1 e.2 ++ rest

theorem standsAt_length (before : List Char) (r : Ref) (o : Object) (after : List Char) :
    StandsAt (before ++ writtenObject r o ++ after) (r, before.length) (r, o) where
  ref := rfl
  le := by simp
  text := ⟨after, by rw [List.append_assoc, List.drop_left]⟩

/-- Each object stands at its place. -/
theorem standsAt_writtenObjects (before : List Char) (objects : Objects) (after : List Char) :
    List.Forall₂ (StandsAt (before ++ (writtenObjects before.length objects).2 ++ after))
      (writtenObjects before.length objects).1 objects := by
  induction objects generalizing before with
  | nil => exact .nil
  | cons e objects ih =>
    obtain ⟨r, o⟩ := e
    have hlater := ih (before ++ writtenObject r o)
    rw [List.length_append] at hlater
    simp only [writtenObjects]
    rw [← List.append_assoc before]
    refine .cons ?_ hlater
    rw [List.append_assoc (before ++ _)]
    exact standsAt_length before r o _

theorem lt_of_mem_writtenObjects {objects : Objects} (h : ∀ e ∈ objects, e.2.isStorable = true)
    (start : Nat) : ∀ c ∈ (writtenObjects start objects).2, c.toNat < 256 := by
  induction objects generalizing start with
  | nil => simp [writtenObjects]
  | cons e objects ih =>
    obtain ⟨ho, h⟩ := List.forall_mem_cons.1 h
    exact List.forall_mem_append.2 ⟨lt_of_mem_writtenObject e.1 ho, ih h _⟩

/-! ## The table of places -/

theorem length_bigEndian (n x : Nat) : (bigEndian n x).length = n := by
  induction n generalizing x with
  | zero => rfl
  | succ n ih => rw [bigEndian, List.length_append, ih]; rfl

theorem ofBigEndian_bigEndian {n x : Nat} (h : x < 256 ^ n) : ofBigEndian (bigEndian n x) = x := by
  induction n generalizing x with
  | zero =>
    have hx : x = 0 := by simpa using h
    rw [hx]
    rfl
  | succ n ih =>
    have hdiv : x / 256 < 256 ^ n := Nat.div_lt_of_lt_mul (by rwa [Nat.pow_succ'] at h)
    have hlast : (UInt8.ofNat x).toNat = x % 256 := UInt8.toNat_ofNat'
    have hfold := ih hdiv
    rw [ofBigEndian] at hfold
    rw [bigEndian, ofBigEndian, List.foldl_append, hfold, List.foldl_cons, List.foldl_nil, hlast]
    omega

/-- The bytes that tell a place. -/
def placeBytes (p : Ref × Nat) : List UInt8 :=
  1 :: bigEndian 4 p.2 ++ bigEndian 2 p.1.generation

/-- The entry of the table for an object. -/
def placeEntry (p : Ref × Nat) : Nat × Place :=
  (p.1.number, .direct p.2 p.1.generation)

theorem Table.put_of_lt {newer : Bool} {number : Nat} {place : Place} {table : Table}
    (h : ∀ e ∈ table, e.1 < number) :
    table.put newer number place = table ++ [(number, place)] := by
  induction table with
  | nil => rfl
  | cons e table ih =>
    obtain ⟨n, p⟩ := e
    obtain ⟨hn, h⟩ := List.forall_mem_cons.1 h
    change n < number at hn
    rw [put, if_neg (by omega), if_neg (by omega), ih h, List.cons_append]

/-- The bytes of one place are read as it. -/
theorem fields_cons {p : Ref × Nat} (hplace : p.2 < 256 ^ 4)
    (hgeneration : p.1.generation < 256 ^ 2) (numbers : List Nat) (table : Table) (more : List UInt8) :
    fields (1, 4, 2) (p.1.number :: numbers) table (placeBytes p ++ more) =
      fields (1, 4, 2) numbers (table.put true p.1.number (placeEntry p).2) more := by
  have hbytes : placeBytes p ++ more =
      1 :: (bigEndian 4 p.2 ++ (bigEndian 2 p.1.generation ++ more)) := by
    simp [placeBytes]
  have hsecond : (bigEndian 4 p.2 ++ (bigEndian 2 p.1.generation ++ more)).take 4 =
      bigEndian 4 p.2 := List.take_left' (length_bigEndian 4 _)
  have hthird : (bigEndian 4 p.2 ++ (bigEndian 2 p.1.generation ++ more)).drop 4 =
      bigEndian 2 p.1.generation ++ more := List.drop_left' (length_bigEndian 4 _)
  have hgen : (bigEndian 2 p.1.generation ++ more).take 2 = bigEndian 2 p.1.generation :=
    List.take_left' (length_bigEndian 2 _)
  have hmore : (bigEndian 4 p.2 ++ (bigEndian 2 p.1.generation ++ more)).drop 6 = more := by
    rw [← List.append_assoc, List.drop_left' (by simp [length_bigEndian])]
  have hkind : ofBigEndian [1] = 1 := rfl
  rw [hbytes, fields]
  simp only [List.drop_succ_cons, List.take_succ_cons, List.drop_zero, List.take_zero,
    Nat.reduceAdd, hsecond, hthird, hgen, hmore, hkind, ofBigEndian_bigEndian hplace,
    ofBigEndian_bigEndian hgeneration]
  rw [if_neg (by simp [length_bigEndian]; omega)]
  rfl

/-- What tells the places is read as the table of them. -/
theorem fields_places {places : List (Ref × Nat)}
    (hplaces : ∀ p ∈ places, p.2 < 256 ^ 4 ∧ p.1.generation < 256 ^ 2)
    (hnumbers : places.Pairwise fun p q => p.1.number < q.1.number) {table : Table}
    (htable : ∀ e ∈ table, ∀ p ∈ places, e.1 < p.1.number) :
    fields (1, 4, 2) (places.map (·.1.number)) table (places.flatMap placeBytes) =
      some (table ++ places.map placeEntry) := by
  induction places generalizing table with
  | nil => rw [List.map_nil, List.map_nil, List.append_nil, fields]
  | cons p places ih =>
    obtain ⟨⟨hplace, hgeneration⟩, hplaces⟩ := List.forall_mem_cons.1 hplaces
    obtain ⟨hfirst, hnumbers⟩ := List.pairwise_cons.1 hnumbers
    have hput : table.put true p.1.number (placeEntry p).2 = table ++ [placeEntry p] :=
      Table.put_of_lt fun e he => htable e he p List.mem_cons_self
    have htable : ∀ e ∈ table ++ [placeEntry p], ∀ q ∈ places, e.1 < q.1.number :=
      List.forall_mem_append.2 ⟨fun e he q hq => htable e he q (List.mem_cons_of_mem _ hq),
        List.forall_mem_singleton.2 hfirst⟩
    rw [List.map_cons, List.flatMap_cons, fields_cons hplace hgeneration, hput,
      ih hplaces hnumbers htable, List.append_assoc, List.map_cons, List.singleton_append]

theorem indexed_cons (first count : Nat) (rest : List Int) :
    indexed (first :: count :: rest) = (List.range count).map (first + ·) ++ indexed rest := by
  rw [indexed, Int.toNat_natCast]
  refine congrArg (· ++ indexed rest) (List.map_congr_left fun i _ => ?_)
  exact Int.toNat_natCast (first + i)

/-- Runs of numbers stand for the numbers. -/
theorem indexed_runs (numbers : List Nat) :
    indexed ((runs numbers).flatMap fun run => [(run.1 : Int), (run.2 : Int)]) = numbers := by
  induction numbers with
  | nil => rfl
  | cons n numbers ih =>
    rw [runs]
    split
    · next first count rest heq =>
      rw [heq, List.flatMap_cons, List.cons_append, List.cons_append, List.nil_append,
        indexed_cons] at ih
      split
      · next hfirst =>
        rw [List.flatMap_cons, List.cons_append, List.cons_append, List.nil_append, indexed_cons,
          List.range_succ_eq_map, List.map_cons, List.map_map, List.cons_append, ← ih, hfirst]
        simp [Function.comp_def, Nat.add_assoc, Nat.add_comm 1]
      · rw [List.flatMap_cons, List.flatMap_cons, List.cons_append, List.cons_append,
          List.nil_append, List.cons_append, List.cons_append, List.nil_append, indexed_cons,
          indexed_cons, ih]
        rfl
    · next heq =>
      rw [heq] at ih
      rw [← ih]
      rfl

theorem integers?_map (ns : List Int) : integers? (.array (ns.map .int)) = some ns := by
  change (ns.map Object.int).mapM Object.int? = some ns
  induction ns with
  | nil => rfl
  | cons n ns ih =>
    rw [List.map_cons, List.mapM_cons, ih]
    rfl

/-! ## The stream of places -/

/-- The numbers of objects, run by run. -/
def indexOf (places : List (Ref × Nat)) : List Int :=
  (runs (places.map (·.1.number))).flatMap fun run => [(run.1 : Int), (run.2 : Int)]

/-- The entries that go with the places of objects. -/
def placesDict (trailer : Dict) (size : Nat) (places : List (Ref × Nat)) : Dict :=
  ((((trailer.erase "Filter").set "Type" (.name "XRef")).set "Size" (.int size)).set "W"
    (.array [.int 1, .int 4, .int 2])).set "Index" (.array ((indexOf places).map .int)) |>.set
      "Length" (.int (places.flatMap placeBytes).length)

theorem placesStream_eq (trailer : Dict) (size : Nat) (places : List (Ref × Nat)) :
    placesStream trailer size places =
      .stream (placesDict trailer size places) (places.flatMap placeBytes) := by
  have hindex : ((runs (places.map (·.1.number))).flatMap fun run =>
      [Object.int run.1, .int run.2]) = (indexOf places).map .int := by
    rw [indexOf, List.map_flatMap]
    rfl
  rw [placesDict, ← hindex]
  rfl

theorem mem_runs {numbers : List Nat} {run : Nat × Nat} (h : run ∈ runs numbers) :
    run.1 ∈ numbers ∧ run.2 ≤ numbers.length := by
  induction numbers generalizing run with
  | nil => cases h
  | cons n numbers ih =>
    rw [runs] at h
    split at h
    · next first count rest heq =>
      have hold : ∀ run ∈ (first, count) :: rest, run.1 ∈ n :: numbers ∧
          run.2 ≤ (n :: numbers).length := fun run hrun => by
        obtain ⟨hfirst, hcount⟩ := ih (heq ▸ hrun)
        exact ⟨List.mem_cons_of_mem n hfirst, hcount.trans (Nat.le_succ _)⟩
      split at h
      · rcases List.mem_cons.1 h with rfl | h
        · exact ⟨List.mem_cons_self, Nat.succ_le_succ (ih (heq ▸ List.mem_cons_self)).2⟩
        · exact hold run (List.mem_cons_of_mem _ h)
      · rcases List.mem_cons.1 h with rfl | h
        · exact ⟨List.mem_cons_self, by simp⟩
        · exact hold run h
    · next heq =>
      obtain rfl := List.mem_singleton.1 h
      exact ⟨List.mem_cons_self, by simp⟩

theorem length_le_placeBytes (places : List (Ref × Nat)) :
    places.length ≤ (places.flatMap placeBytes).length := by
  induction places with
  | nil => simp
  | cons p places ih =>
    rw [List.flatMap_cons, List.length_append, List.length_cons, Nat.add_comm]
    exact Nat.add_le_add (Nat.succ_le_of_lt (by simp [placeBytes])) ih

/-- The stream of places is read again, if the numbers in it are not too large. -/
theorem isStorable_placesStream {trailer : Dict} (h : haveLegible trailer = true) {size : Nat}
    (hsize : size < 2 ^ 63) {places : List (Ref × Nat)}
    (hnumbers : ∀ p ∈ places, p.1.number < 2 ^ 63)
    (hlength : (places.flatMap placeBytes).length < 2 ^ 63) :
    (placesStream trailer size places).isStorable = true := by
  have hcount := (length_le_placeBytes places).trans_lt hlength
  have hindex : areLegible ((indexOf places).map .int) = true := by
    refine areLegible_of_forall fun o ho => ?_
    obtain ⟨n, hn, rfl⟩ := List.mem_map.1 ho
    obtain ⟨run, hrun, hn⟩ := List.mem_flatMap.1 hn
    obtain ⟨hfirst, hle⟩ := mem_runs hrun
    obtain ⟨p, hp, hnumber⟩ := List.mem_map.1 hfirst
    rw [List.length_map] at hle
    rcases List.mem_pair.1 hn with rfl | rfl
    · exact isLegible_natCast (hnumber ▸ hnumbers p hp)
    · exact isLegible_natCast (hle.trans_lt hcount)
  rw [placesStream_eq, Object.isStorable_iff]
  refine Or.inr ⟨_, _, rfl, ?_, ?_⟩
  · have herase := haveLegible_erase h "Filter"
    have htype := haveLegible_set herase (by decide : areBytes "Type" = true)
      (by decide : (Object.name "XRef").isLegible = true)
    have hsize := haveLegible_set htype (by decide : areBytes "Size" = true)
      (isLegible_natCast hsize)
    have hwidths := haveLegible_set hsize (by decide : areBytes "W" = true)
      (by decide : (Object.array [.int 1, .int 4, .int 2]).isLegible = true)
    have hindex := haveLegible_set hwidths (by decide : areBytes "Index" = true)
      (show (Object.array ((indexOf places).map .int)).isLegible = true from hindex)
    exact haveLegible_set hindex (by decide : areBytes "Length" = true) (isLegible_natCast hlength)
  · rw [placesDict, Dict.get?_set, if_pos rfl]

theorem get?_placesDict (trailer : Dict) (size : Nat) (places : List (Ref × Nat)) (name : String) :
    (placesDict trailer size places).get? name =
      if name = "Length" then some (.int (places.flatMap placeBytes).length)
      else if name = "Index" then some (.array ((indexOf places).map .int))
      else if name = "W" then some (.array [.int 1, .int 4, .int 2])
      else if name = "Size" then some (.int size)
      else if name = "Type" then some (.name "XRef")
      else if name = "Filter" then none else trailer.get? name := by
  simp only [placesDict, Dict.get?_set, Dict.get?_erase, eq_comm (b := name)]

/-- The stream of places is read as the table of them. -/
theorem streamTable?_placesStream {r : Ref} (hr : (Object.ref r).isLegible = true) {trailer : Dict}
    {size : Nat} {places : List (Ref × Nat)}
    (hstorable : (placesStream trailer size places).isStorable = true)
    (hplaces : ∀ p ∈ places, p.2 < 256 ^ 4 ∧ p.1.generation < 256 ^ 2)
    (hnumbers : places.Pairwise fun p q => p.1.number < q.1.number) (rest : List Char) :
    streamTable? (writtenObject r (placesStream trailer size places) ++ rest) =
      some (places.map placeEntry, ["Length", "W", "Index"].foldl
        (fun d name => Dict.erase name d) (placesDict trailer size places)) := by
  have hfilter : (placesDict trailer size places).get? "Filter" = none := by
    simp [get?_placesDict]
  have hshown : shownContent (placesDict trailer size places) (places.flatMap placeBytes) =
      places.flatMap placeBytes := by
    simp [shownContent, decoded?, filters, hfilter]
  have hsize : (placesDict trailer size places).get? "Size" = some (.int size) := by
    simp [get?_placesDict]
  have hwidths : ((placesDict trailer size places).get? "W").bind integers? =
      some [1, 4, 2] := by
    simpa [get?_placesDict] using integers?_map [1, 4, 2]
  have hindex : ((placesDict trailer size places).get? "Index").bind integers? =
      some (indexOf places) := by
    simp [get?_placesDict, integers?_map]
  have htable : ∀ e ∈ ([] : Table), ∀ p ∈ places, e.1 < p.1.number := by simp
  have hfields : fields (1, 4, 2) (indexed (indexOf places)) [] (places.flatMap placeBytes) =
      some (places.map placeEntry) := by
    rw [indexOf, indexed_runs]
    exact fields_places hplaces hnumbers htable
  rw [streamTable?, indirect?_written hr hstorable (fun _ => rfl), placesStream_eq]
  simp only [Option.bind_eq_bind, Option.bind_some, hsize, hwidths, hindex, hshown]
  rw [Object.int?, Option.bind_some, if_neg (by decide)]
  change (fields (1, 4, 2) (indexed (indexOf places)) [] _).bind _ = _
  rw [hfields]
  rfl

/-! ## Words in a file -/

theorem placesOf_eq_nil {c : Char} {word : List Char} (start : Nat) {cs : List Char}
    (h : c ∉ cs) : placesOf (c :: word) start cs = [] := by
  induction cs generalizing start with
  | nil => rfl
  | cons d cs ih =>
    rw [List.mem_cons, not_or] at h
    obtain ⟨hd, hcs⟩ := h
    rw [placesOf, ih (start + 1) hcs]
    simp [List.isPrefixOf, hd]

/-- The last place of a word is where it stands, if it does not begin again behind its first
    character. -/
theorem getLast?_placesOf {word : List Char} {c : Char} {cs : List Char} (hword : word = c :: cs)
    {after : List Char} (hafter : ∀ start, placesOf word start (cs ++ after) = [])
    (before : List Char) (start : Nat) :
    (placesOf word start (before ++ word ++ after)).getLast? = some (start + before.length) := by
  induction before generalizing start with
  | nil =>
    have hprefix : word.isPrefixOf (word ++ after) = true :=
      List.isPrefixOf_iff_prefix.2 (List.prefix_append _ _)
    have hcons : word ++ after = c :: (cs ++ after) := by rw [hword, List.cons_append]
    rw [List.nil_append, hcons, placesOf, hafter, ← hcons, if_pos hprefix]
    rfl
  | cons d before ih =>
    have hlater := ih (start + 1)
    rw [List.cons_append, List.cons_append, placesOf]
    split
    · rw [List.getLast?_cons, hlater]
      simp [Nat.add_assoc, Nat.add_comm 1]
    · rw [hlater]
      simp [Nat.add_assoc, Nat.add_comm 1]

theorem lastPlace?_append {word : String} {c : Char} {cs : List Char}
    (hword : word.toList = c :: cs) {after : List Char}
    (hafter : ∀ start, placesOf word.toList start (cs ++ after) = []) {before : List Char}
    {start : Nat} (hstart : start ≤ before.length) :
    lastPlace? word start (before ++ word.toList ++ after) = some before.length := by
  rw [lastPlace?, List.append_assoc, List.drop_append_of_le_length hstart, ← List.append_assoc,
    getLast?_placesOf hword hafter, List.length_drop, Nat.add_sub_cancel' hstart]

/-- The end of a file: the place of the stream of places. -/
def ending (start : Nat) : List Char :=
  '\n' :: ("startxref".toList ++ '\n' :: (Nat.toDigits 10 start ++ '\n' :: "%%EOF".toList))

/-- The characters of the end, word by word. -/
theorem append_ending (front : List Char) (start : Nat) :
    front ++ ending start = (front ++ ['\n']) ++ "startxref".toList ++
      '\n' :: (Nat.toDigits 10 start ++ '\n' :: "%%EOF".toList) ∧
    front ++ ending start = (front ++ '\n' :: ("startxref".toList ++
      '\n' :: (Nat.toDigits 10 start ++ ['\n']))) ++ "%%EOF".toList ++ [] := by
  simp [ending]

theorem lastPlace?_mark (front : List Char) (start : Nat) :
    lastPlace? "%%EOF" ((front ++ ending start).length - 512) (front ++ ending start) =
      some (front.length + 12 + (Nat.toDigits 10 start).length) := by
  let before := front ++ '\n' :: ("startxref".toList ++ '\n' :: (Nat.toDigits 10 start ++ ['\n']))
  have hword : "%%EOF".toList = '%' :: ['%', 'E', 'O', 'F'] := rfl
  have htext : front ++ ending start = before ++ "%%EOF".toList ++ [] := (append_ending _ _).2
  have hlength : before.length = front.length + 12 + (Nat.toDigits 10 start).length := by
    simp [before]
    omega
  rw [htext, ← hlength]
  refine lastPlace?_append hword (fun _ => rfl) ?_
  simp only [List.length_append, hword, List.length_cons, List.length_nil]
  omega

theorem lastPlace?_word (front : List Char) (start : Nat) {least : Nat}
    (h : least ≤ front.length + 1) :
    lastPlace? "startxref" least (front ++ ending start) = some (front.length + 1) := by
  have hword : "startxref".toList = 's' :: ['t', 'a', 'r', 't', 'x', 'r', 'e', 'f'] := rfl
  have hdigit : 's' ∉ Nat.toDigits 10 start := fun h =>
    absurd (isDigit_of_mem_toDigits h) (by decide)
  rw [(append_ending _ _).1, lastPlace?_append hword (fun n => ?_) (by simpa using h),
    List.length_append, List.length_singleton]
  rw [hword]
  exact placesOf_eq_nil n (by simp [hdigit])

/-- The place of the stream of places is read at the end of a file. -/
theorem tablePlace?_ending {front : List Char} (hfront : 25 ≤ front.length) {start : Nat}
    (hstart : start < 10 ^ 14) : tablePlace? (front ++ ending start) = some (start : Int) := by
  let after := '\n' :: (Nat.toDigits 10 start ++ '\n' :: "%%EOF".toList)
  have hdigits : (Nat.toDigits 10 start).length ≤ 14 :=
    (Nat.length_toDigits_le_iff (by decide) (by decide)).2 hstart
  have hdrop : (front ++ ending start).drop (front.length + 1) = "startxref".toList ++ after := by
    rw [(append_ending _ _).1, List.append_assoc, ← List.length_singleton, ← List.length_append,
      List.drop_left]
  have hnumber : integer? (Nat.toDigits 10 start ++ '\n' :: "%%EOF".toList) =
      some ((start : Int), '\n' :: "%%EOF".toList) :=
    integer?_toDigits (by omega) (not_isDigit_cons (by decide) _)
  have htag : tag? "%%EOF" "%%EOF".toList = some [] := by
    simpa using tag?_append "%%EOF" []
  rw [tablePlace?, lastPlace?_mark]
  simp only [Option.bind_eq_bind, Option.bind_some]
  rw [lastPlace?_word front start (by omega)]
  simp only [Option.bind_some, hdrop, tag?_append, after, eol?, hnumber, htag]
  rw [if_neg (by omega)]
  rfl

/-! ## The first line -/

theorem fromUTF8?_narrow {text : String} (h : ∀ c ∈ text.toList, c.toNat < 128) :
    String.fromUTF8? ⟨(Text.Octets.toBytes text.toList).toArray⟩ = some text := by
  have hchar : ∀ c ∈ text.toList, String.utf8EncodeChar c = [UInt8.ofNat c.toNat] := by
    intro c hc
    have hle : c.val ≤ 127 := UInt32.le_iff_toNat_le.2 (Nat.le_of_lt_succ (h c hc))
    rw [String.utf8EncodeChar_eq_singleton (Char.utf8Size_eq_one_iff.2 hle)]
    rfl
  have hbytes : text.toByteArray = ⟨(Text.Octets.toBytes text.toList).toArray⟩ := by
    rw [← String.utf8Encode_toList, List.utf8Encode, List.flatMap_congr hchar,
      ← List.map_eq_flatMap]
    exact ByteArray.ext (Array.ext' List.toList_data_toByteArray)
  rw [← hbytes, String.fromUTF8?, dif_pos text.isValidUTF8]
  rfl

theorem version?_written {version : String}
    (h : ∀ c ∈ version.toList, c.toNat < 128 ∧ endsLine c = false) (rest : List Char) :
    version? (("%PDF-" ++ version ++ "\n").toList ++ rest) = some version := by
  have htext : ("%PDF-" ++ version ++ "\n").toList ++ rest =
      "%PDF-".toList ++ (version.toList ++ '\n' :: rest) := by
    simp
  have hpos : ∀ c ∈ version.toList, (!endsLine c) = true := fun c hc => by simp [(h c hc).2]
  have hdrop : (version.toList ++ '\n' :: rest).dropWhile (!endsLine ·) = '\n' :: rest := by
    rw [List.dropWhile_append_of_pos hpos, List.dropWhile_cons_of_neg (by decide)]
  have htake : (version.toList ++ '\n' :: rest).takeWhile (!endsLine ·) = version.toList := by
    rw [List.takeWhile_append_of_pos hpos, List.takeWhile_cons_of_neg (by decide), List.append_nil]
  rw [version?, htext, tag?_append]
  simp only [Option.bind_eq_bind, Option.bind_some, hdrop, htake, eol?]
  exact fromUTF8?_narrow fun c hc => (h c hc).1

/-! ## The file -/

theorem plainTable?_eq_none {c : Char} (h : c.isDigit = true) (cs : List Char) :
    plainTable? (c :: cs) = none := by
  have htag : tag? "xref" (c :: cs) = none := by
    refine tag?_eq_none (fun heq => ?_) (by decide)
    obtain rfl : 'x' = c := Option.some.inj heq
    exact absurd h (by decide)
  rw [plainTable?, htag]
  rfl

theorem tableAt_eq {file : List Char} {start : Nat} {r : Ref} {o : Object} {rest : List Char}
    (hdrop : file.drop start = writtenObject r o ++ rest) {found : Table × Dict}
    (h : streamTable? (writtenObject r o ++ rest) = some found) :
    tableAt file start = .ok found := by
  obtain ⟨close, hclose⟩ := exists_closing r o rest
  obtain ⟨c, cs, hcs, hc⟩ := exists_toDigits r.number
  have hplain : plainTable? (writtenObject r o ++ rest) = none := by
    rw [hclose, hcs, List.cons_append, plainTable?_eq_none hc]
  rw [tableAt, hdrop]
  simp only [hplain, h]
  rfl

/-- The objects at their places are read. -/
theorem filterMap_placed? {file : List Char} {places : List (Ref × Nat)} {objects : Objects}
    (h : List.Forall₂ (StandsAt file) places objects)
    (hstorable : ∀ e ∈ objects, (Object.ref e.1).isLegible = true ∧ e.2.isStorable = true)
    {lengthOf : Object → Option Int} (hdirect : ∀ n, lengthOf (.int n) = some n) :
    (places.map placeEntry).filterMap (fun entry => placed? lengthOf file entry.2) =
      objects.map fun e => (e.1, e.2, none) := by
  induction h with
  | nil => rfl
  | @cons p e places objects hp _ ih =>
    obtain ⟨⟨hr, ho⟩, hstorable⟩ := List.forall_mem_cons.1 hstorable
    obtain ⟨rest, htext⟩ := hp.text
    have hread : placed? lengthOf file (placeEntry p).2 = some (e.1, e.2, none) := by
      rw [placeEntry, placed?, htext, indirect?_written hr ho hdirect]
    simp only [List.map_cons, List.filterMap_cons, hread, ih hstorable]

/-- Where all lengths are known, objects stay as they were found. -/
theorem settled_eq_self (d : Document) {found : List (Ref × Found)}
    (h : ∀ x ∈ found, x.2.2 = none) (r : Ref) (o : Object) : settled d found r o = o := by
  unfold settled
  split
  · next heq =>
    cases h _ (List.mem_reverse.1 (List.mem_of_find?_eq_some heq))
  · rfl

/-- What stands in a file is found in it. -/
theorem assembled_eq {file : List Char} {places : List (Ref × Nat)} {objects : Objects}
    (h : List.Forall₂ (StandsAt file) places objects)
    (hstorable : ∀ e ∈ objects, (Object.ref e.1).isLegible = true ∧ e.2.isStorable = true)
    (hpacked : ∀ e ∈ objects, unpacked e.2 = []) (hordered : objects.Ascending)
    (version : String) (trailer : Dict) :
    assembled file version (places.map placeEntry) trailer = ⟨version, trailer, objects⟩ := by
  have hdirect : ∀ n, lengthIn file (places.map placeEntry) (.int n) = some n := fun _ => rfl
  let found : List (Ref × Found) := objects.map fun e => (e.1, e.2, none)
  have hfound : (places.map placeEntry).filterMap
      (fun entry => placed? (lengthIn file (places.map placeEntry)) file entry.2) = found :=
    filterMap_placed? h hstorable hdirect
  have hknown : ∀ x ∈ found, x.2.2 = none := List.forall_mem_map.2 fun e _ => rfl
  have hunpacked : found.flatMap (fun entry => unpacked entry.2.1) = [] :=
    List.flatMap_eq_nil_iff.2 (List.forall_mem_map.2 hpacked)
  have hobjects : found.map (fun x => (x.1, x.2.1)) = objects := by
    rw [List.map_map]
    exact List.map_id objects
  have hlist : Objects.ofList ((if trailer.has "Encrypt" then [] else
      found.flatMap fun entry => unpacked entry.2.1) ++ found.map fun x => (x.1, x.2.1)) =
        objects := by
    rw [hunpacked, ite_self, List.nil_append, hobjects, Objects.ofList_eq_self hordered]
  simp only [assembled, hfound, settled_eq_self _ hknown]
  rw [hlist]
  simp

end Waybill.Pdf
