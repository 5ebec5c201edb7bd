/-
  A document that is written is read again.

  * `Document.stored` is what is written: the objects, without those that are about places in a
    file, and the stream of places behind them;
  * `Document.Writable` are the documents that are read as what they are;
  * `Writing.Preserves`: a document that is saved is read with the objects that its trailer leads
    to.

  Statements: `Document.standsAt_places` (all that is written stands at its place),
  `Document.Writable.read` (the bytes of a document are read as it), `Document.Writable.preserves`.
-/
import Mathlib
import Waybill.Proofs.Pdf.Gathering
import Waybill.Proofs.Pdf.Places

namespace Waybill.Pdf

/-! ## Documents that are written -/

namespace Document

variable (d : Document)

/-- The objects that are written. -/
def kept : Objects :=
  d.objects.filter fun e => !isStructural e.2

/-- The last of the numbers. -/
def last : Nat :=
  d.objects.foldl (fun n o => max n o.1.number) 0

/-- The first line. -/
def head : List Char :=
  ("%PDF-" ++ d.version ++ "\n").toList

/-- Where the stream of places stands. -/
def start : Nat :=
  d.head.length + (writtenObjects d.head.length d.kept).2.length

/-- The places of all that is written. -/
def places : List (Ref × Nat) :=
  (writtenObjects d.head.length d.kept).1 ++ [(⟨d.last + 1, 0⟩, d.start)]

/-- The stream of places. -/
def placesObject : Object :=
  placesStream d.trailer (d.last + 2) d.places

/-- All that is written, each with its reference. -/
def stored : Objects :=
  d.kept ++ [(⟨d.last + 1, 0⟩, d.placesObject)]

theorem written_eq : d.written = d.head ++ (writtenObjects d.head.length d.kept).2 ++
    writtenObject ⟨d.last + 1, 0⟩ d.placesObject ++ ending d.start := by
  have hending : ("\nstartxref\n" ++ toString d.start ++ "\n%%EOF").toList = ending d.start := by
    simp [ending]
  rw [← hending]
  rfl

/-- A document that can be written: what it holds can, there is one version of it, and the numbers
    of its objects and the length of the file fit. -/
structure Writable (d : Document) : Prop where
  version : ∀ c ∈ d.version.toList, c.toNat < 128 ∧ endsLine c = false
  trailer : haveLegible d.trailer = true
  single : d.trailer.get? "Prev" = none
  objects : ∀ e ∈ d.objects, e.2.isStorable = true
  refs : ∀ e ∈ d.objects, e.1.number + 1 < 2 ^ 32 ∧ e.1.generation < 2 ^ 16
  numbers : d.objects.Pairwise fun a b => a.1.number < b.1.number
  length : d.written.length < 2 ^ 32

instance : Decidable d.Writable :=
  decidable_of_iff ((d.version.toList.all fun c => c.toNat < 128 && !endsLine c) ∧
    haveLegible d.trailer = true ∧ d.trailer.get? "Prev" = none ∧
    (∀ e ∈ d.objects, e.2.isStorable = true) ∧
    (∀ e ∈ d.objects, e.1.number + 1 < 2 ^ 32 ∧ e.1.generation < 2 ^ 16) ∧
    d.objects.Pairwise (fun a b => a.1.number < b.1.number) ∧ d.written.length < 2 ^ 32)
    ⟨fun ⟨version, trailer, single, objects, refs, numbers, length⟩ =>
      ⟨by simpa using version, trailer, single, objects, refs, numbers, length⟩,
    fun h => ⟨by simpa using h.version, h.trailer, h.single, h.objects, h.refs, h.numbers,
      h.length⟩⟩

theorem number_le_last {e : Ref × Object} (h : e ∈ d.objects) : e.1.number ≤ d.last := by
  have hall : ∀ (objects : Objects) (n : Nat), n ≤ objects.foldl (fun n o => max n o.1.number) n ∧
      ∀ e ∈ objects, e.1.number ≤ objects.foldl (fun n o => max n o.1.number) n := by
    intro objects
    induction objects with
    | nil => simp
    | cons o objects ih =>
      intro n
      obtain ⟨hle, hobjects⟩ := ih (max n o.1.number)
      exact ⟨(Nat.le_max_left _ _).trans hle, List.forall_mem_cons.2
        ⟨(Nat.le_max_right _ _).trans hle, hobjects⟩⟩
  exact (hall d.objects 0).2 e h

theorem last_lt {bound : Nat} (hbound : 0 < bound) (h : ∀ e ∈ d.objects, e.1.number < bound) :
    d.last < bound := by
  have hall : ∀ (objects : Objects) (n : Nat), n < bound → (∀ e ∈ objects, e.1.number < bound) →
      objects.foldl (fun n o => max n o.1.number) n < bound := by
    intro objects
    induction objects with
    | nil => exact fun n hn _ => hn
    | cons o objects ih =>
      intro n hn h
      obtain ⟨ho, h⟩ := List.forall_mem_cons.1 h
      exact ih _ (Nat.max_lt.2 ⟨hn, ho⟩) h
  exact hall d.objects 0 hbound h

/-- All that is written stands at its place. -/
theorem standsAt_places : List.Forall₂ (StandsAt d.written) d.places d.stored := by
  have hstart : (d.head ++ (writtenObjects d.head.length d.kept).2).length = d.start :=
    List.length_append
  have hkept := standsAt_writtenObjects d.head d.kept
    (writtenObject ⟨d.last + 1, 0⟩ d.placesObject ++ ending d.start)
  have hplaces := standsAt_length (d.head ++ (writtenObjects d.head.length d.kept).2)
    ⟨d.last + 1, 0⟩ d.placesObject (ending d.start)
  rw [← List.append_assoc, ← written_eq] at hkept
  rw [← written_eq, hstart] at hplaces
  exact List.rel_append hkept (.cons hplaces .nil)

theorem length_places_le : (d.places.flatMap placeBytes).length + 25 ≤
    (writtenObject ⟨d.last + 1, 0⟩ d.placesObject).length := by
  obtain ⟨close, hclose⟩ := exists_closing ⟨d.last + 1, 0⟩ d.placesObject []
  have hcontent := congrArg List.length
    (written_stream (placesDict d.trailer (d.last + 2) d.places) (d.places.flatMap placeBytes) [])
  rw [← placesStream_eq, ← placesObject] at hcontent
  have hobject := congrArg List.length hclose
  simp only [body, closing, String.reduceToList, List.length_append, List.length_cons,
    List.length_nil, Text.Octets.length_ofBytes] at hcontent hobject ⊢
  omega

/-- The places are those of the objects, one after the other. -/
theorem numbers_places :
    (d.places.map fun p => p.1.number) = d.stored.map fun e => e.1.number := by
  have hnumbers := d.standsAt_places.imp fun _ _ h => congrArg Ref.number h.ref
  rwa [← List.forall₂_eq_eq_eq, List.forall₂_map_left_iff, List.forall₂_map_right_iff]

theorem ref_of_mem_places {p : Ref × Nat} (hp : p ∈ d.places) :
    p.2 ≤ d.written.length ∧ ∃ e ∈ d.stored, p.1 = e.1 := by
  obtain ⟨i, hi, rfl⟩ := List.mem_iff_getElem.1 hp
  have hlength := d.standsAt_places.length_eq
  have hstands := d.standsAt_places.get hi (hlength ▸ hi)
  exact ⟨hstands.le, _, List.getElem_mem _, hstands.ref⟩

theorem start_le : d.start ≤ d.written.length :=
  (d.ref_of_mem_places (List.mem_append_right _ (List.mem_singleton_self _))).1

theorem mem_stored_places : (⟨d.last + 1, 0⟩, d.placesObject) ∈ d.stored :=
  List.mem_append_right _ (List.mem_singleton_self _)

/-- Nothing that is written has objects in it. -/
theorem unpacked_of_mem_stored {e : Ref × Object} (he : e ∈ d.stored) : unpacked e.2 = [] := by
  rcases List.mem_append.1 he with he | he
  · have hkept : isStructural e.2 = false := by simpa using (List.mem_filter.1 he).2
    obtain ⟨r, o⟩ := e
    cases o with
    | stream entries content =>
      rw [unpacked, if_neg]
      intro htype
      simp [isStructural, Object.entries?, htype] at hkept
    | _ => rfl
  · rw [List.mem_singleton.1 he, placesObject, placesStream_eq, unpacked, if_neg]
    simp [Dict.typeName?, get?_placesDict, Object.name?]

namespace Writable

variable {d : Document} (h : d.Writable)
include h

theorem numbers_stored : List.Pairwise (fun a b => a.1.number < b.1.number) d.stored := by
  refine List.pairwise_append.2 ⟨h.numbers.sublist List.filter_sublist, List.pairwise_singleton _ _,
    fun e he p hp => ?_⟩
  rw [List.mem_singleton.1 hp]
  exact Nat.lt_succ_of_le (d.number_le_last (List.mem_of_mem_filter he))

theorem ascending_stored : d.stored.Ascending :=
  h.numbers_stored.imp fun hlt => Ref.before_iff.2 (Or.inl hlt)

theorem last_lt : d.last + 1 < 2 ^ 32 := by
  have hbound : ∀ e ∈ d.objects, e.1.number < 2 ^ 32 - 1 := fun e he =>
    Nat.lt_sub_of_add_lt (h.refs e he).1
  have hlast := d.last_lt (by decide) hbound
  omega

theorem isLegible_ref {e : Ref × Object} (he : e ∈ d.stored) :
    (Object.ref e.1).isLegible = true := by
  simp only [Object.isLegible, Bool.and_eq_true, decide_eq_true_eq]
  rcases List.mem_append.1 he with he | he
  · obtain ⟨hnumber, hgeneration⟩ := h.refs e (List.mem_of_mem_filter he)
    exact ⟨by omega, hgeneration⟩
  · rw [List.mem_singleton.1 he]
    exact ⟨h.last_lt, Nat.two_pow_pos 16⟩

theorem ref_of_place {p : Ref × Nat} (hp : p ∈ d.places) :
    p.1.number < 2 ^ 32 ∧ p.1.generation < 2 ^ 16 := by
  obtain ⟨-, e, he, href⟩ := d.ref_of_mem_places hp
  have hlegible := h.isLegible_ref he
  rw [← href] at hlegible
  simpa [Object.isLegible] using hlegible

theorem isStorable_places : d.placesObject.isStorable = true := by
  have hlast := h.last_lt
  have hlength := h.length
  have hplaces := d.length_places_le
  rw [written_eq] at hlength
  simp only [List.length_append] at hlength
  refine isStorable_placesStream h.trailer (by omega) (fun p hp => ?_) (by omega)
  have hnumber := (h.ref_of_place hp).1
  omega

theorem isStorable {e : Ref × Object} (he : e ∈ d.stored) : e.2.isStorable = true := by
  rcases List.mem_append.1 he with he | he
  · exact h.objects e (List.mem_of_mem_filter he)
  · rw [List.mem_singleton.1 he]
    exact h.isStorable_places

/-- The characters of the file are bytes. -/
theorem lt_of_mem_written : ∀ c ∈ d.written, c.toNat < 256 := by
  have hhead : ∀ c ∈ d.head, c.toNat < 256 := by
    have htext : d.head = "%PDF-".toList ++ (d.version.toList ++ ['\n']) := by
      simp [head]
    rw [htext, List.forall_mem_append, List.forall_mem_append]
    exact ⟨by simp, fun c hc => (h.version c hc).1.trans (by decide), by simp⟩
  have hending : ∀ c ∈ ending d.start, c.toNat < 256 := by
    simp only [ending, List.forall_mem_cons, List.forall_mem_append]
    exact ⟨by simp, by simp, by simp, lt_of_mem_toDigits _, by simp, by simp⟩
  rw [written_eq, List.forall_mem_append, List.forall_mem_append, List.forall_mem_append]
  exact ⟨⟨⟨hhead, lt_of_mem_writtenObjects
    (fun e he => h.objects e (List.mem_of_mem_filter he)) _⟩,
      lt_of_mem_writtenObject _ h.isStorable_places⟩, hending⟩

/-- The stream of places is found and read. -/
theorem tableAt_start : ∃ trailer : Dict, trailer.get? "Root" = d.trailer.get? "Root" ∧
    trailer.get? "Prev" = none ∧
    tableAt d.written d.start = .ok (d.places.map placeEntry, trailer) := by
  have hdrop : d.written.drop d.start =
      writtenObject ⟨d.last + 1, 0⟩ d.placesObject ++ ending d.start := by
    rw [written_eq, List.append_assoc, start, ← List.length_append, List.drop_left]
  have hlength := h.length
  have hplaces : ∀ p ∈ d.places, p.2 < 256 ^ 4 ∧ p.1.generation < 256 ^ 2 := fun p hp =>
    ⟨(d.ref_of_mem_places hp).1.trans_lt hlength, (h.ref_of_place hp).2⟩
  have hnumbers : d.places.Pairwise fun p q => p.1.number < q.1.number := by
    have hstored := List.pairwise_map.2 h.numbers_stored
    rw [← d.numbers_places] at hstored
    exact List.pairwise_map.1 hstored
  have href : (Object.ref ⟨d.last + 1, 0⟩).isLegible = true :=
    h.isLegible_ref d.mem_stored_places
  refine ⟨_, ?_, ?_, tableAt_eq hdrop
    (streamTable?_placesStream href h.isStorable_places hplaces hnumbers _)⟩
  · simp [Dict.get?_erase, get?_placesDict]
  · simp [Dict.get?_erase, get?_placesDict, h.single]

/-- **A document that is written is read again.** -/
theorem read : ∃ trailer : Dict, trailer.get? "Root" = d.trailer.get? "Root" ∧
    Document.ofBytes? d.toBytes = .ok ⟨d.version, trailer, d.stored⟩ := by
  have hfile : Text.Octets.ofBytes d.toBytes.data.toList = d.written :=
    Text.Octets.ofBytes_toBytes h.lt_of_mem_written
  have hversion : version? d.written = some d.version := by
    rw [written_eq, List.append_assoc, List.append_assoc]
    exact version?_written h.version _
  have hlength := h.length
  have hstart := d.start_le
  have hplace : tablePlace? d.written = some (d.start : Int) := by
    have hplaces := d.length_places_le
    rw [written_eq]
    refine tablePlace?_ending ?_ (by omega)
    rw [List.length_append]
    omega
  have hin : placeIn d.written .place d.start = .ok d.start := by
    rw [placeIn, if_neg (by simpa using hstart)]
    rfl
  obtain ⟨trailer, hroot, hprev, htable⟩ := h.tableAt_start
  have hobjects : ∀ e ∈ d.stored, (Object.ref e.1).isLegible = true ∧ e.2.isStorable = true :=
    fun e he => ⟨h.isLegible_ref he, h.isStorable he⟩
  refine ⟨(trailer.erase "Prev").erase "XRefStm", by simp [Dict.get?_erase, hroot], ?_⟩
  rw [← assembled_eq d.standsAt_places hobjects (fun _ => d.unpacked_of_mem_stored)
    h.ascending_stored]
  rw [Document.ofBytes?, hfile]
  simp only [hversion, hplace]
  change (placeIn d.written .place d.start).bind _ = _
  rw [hin]
  change (tableAt d.written d.start).bind _ = _
  rw [htable]
  change (withEarlier _ _ _ _ ((trailer.get? "Prev").bind Object.int?) _).bind _ = _
  rw [hprev]
  rfl

/-- What is written has the objects that the trailer leads to, if none of these is about places in
    a file. -/
theorem holds_stored {trailer : Dict} (hroot : trailer.get? "Root" = d.trailer.get? "Root")
    (hplain : ∀ r o, d.Led r → d.find? r = some o → isStructural o = false) :
    Document.Holds ⟨d.version, trailer, d.stored⟩ d where
  root := hroot
  objects r o hled ho := by
    have hkept : (r, o) ∈ d.kept :=
      List.mem_filter.2 ⟨Objects.mem_of_find? ho, by simp [hplain r o hled ho]⟩
    exact h.ascending_stored.find?_eq_some.2 (List.mem_append_left _ hkept)
  others r o ho := by
    have hordered : d.objects.Ascending :=
      h.numbers.imp fun hlt => Ref.before_iff.2 (Or.inl hlt)
    rcases List.mem_append.1 (Objects.mem_of_find? ho) with hmem | hmem
    · exact Or.inl (hordered.find?_eq_some.2 (List.mem_of_mem_filter hmem))
    · cases List.mem_singleton.1 hmem
      exact Or.inr rfl

end Writable

end Document

/-! ## Saving -/

/-- A document that is saved is read again, with the objects that its trailer leads to. -/
def Writing.Preserves (w : Writing) (d : Document) : Prop :=
  ∃ bytes m, w.save d = .ok bytes ∧ Document.ofBytes? bytes = .ok m ∧ m.Holds d

/-- **Saving keeps a document that can be written.** -/
theorem Document.Writable.preserves {d : Document} (h : d.Writable)
    (hplain : ∀ r o, d.Led r → d.find? r = some o → isStructural o = false) :
    Writing.plain.Preserves d := by
  obtain ⟨trailer, hroot, hread⟩ := h.read
  exact ⟨_, _, rfl, hread, h.holds_stored hroot hplain⟩

end Waybill.Pdf
