/-
  Looking up cartons in a payload file.

  A shipment has a list of cartons of its own, but a carton is asked for by its code alone.  When
  the table does not have it, the lists of all shipments are searched in the order of their keys.

  * `Json.Ordered`: members stand in the order of their names;
  * `FirstRecord` is what is found in the lists, `ListsOnce` what a shipment itself lists.

  Statements: `ordered_of_ofText?` (the tables of a file are in order), `exists_firstRecord` (what a
  carton is that the table does not have), `FirstRecord.le` and `FirstRecord.eq` (how far that is
  the record of a given shipment).
-/
import Mathlib.Data.String.Basic
import Waybill.Payload.File

namespace Waybill

/-! ## Members by name -/

namespace Json

variable {α : Type} {members : List (String × α)}

/-- Members stand in the order of their names, each name once. -/
def Ordered (members : List (String × α)) : Prop :=
  members.Pairwise fun m n => m.1 < n.1

theorem Ordered.insertByName (h : Ordered members) (name : String) (value : α) :
    Ordered (insertByName name value members) := by
  induction members with
  | nil => exact List.pairwise_singleton ..
  | cons head rest ih =>
    obtain ⟨n, v⟩ := head
    obtain ⟨hn, hrest⟩ := List.pairwise_cons.1 h
    unfold Json.insertByName
    split
    · next hlt =>
      refine List.pairwise_cons.2 ⟨List.forall_mem_cons.2 ⟨hlt, fun m hm => ?_⟩, h⟩
      exact hlt.trans (hn m hm)
    · next hnlt =>
      split
      · next heq => exact List.pairwise_cons.2 ⟨heq ▸ hn, hrest⟩
      · next hne =>
        refine List.pairwise_cons.2 ⟨fun m hm => ?_, ih hrest⟩
        rcases mem_insertByName hm with rfl | hm
        · exact lt_of_le_of_ne (not_lt.1 hnlt) (Ne.symm hne)
        · exact hn m hm

theorem ordered_byName (members : List (String × α)) : Ordered (byName members) := by
  have h : ∀ done : List (String × α), Ordered done →
      Ordered (members.foldl (fun done m => insertByName m.1 m.2 done) done) := by
    induction members with
    | nil => exact fun _ hdone => hdone
    | cons m members ih => exact fun done hdone => ih _ (hdone.insertByName m.1 m.2)
  exact h [] .nil

theorem ordered_asMap {read : Json → Option α} {json : Json} (h : asMap read json = some members) :
    Ordered members := by
  unfold asMap at h
  split at h
  · obtain ⟨found, -, h⟩ := Option.bind_eq_some_iff.1 h
    cases h
    exact ordered_byName found
  · cases h

theorem ordered_withDefault {read : Json → Option α} {p : Parts} {i : Nat}
    (h : p.withDefault i [] (asMap read) = some members) : Ordered members := by
  unfold Parts.withDefault at h
  split at h
  · cases h
    exact .nil
  · exact ordered_asMap h

/-- A member is the only one of its name. -/
theorem Ordered.eq_of_mem (h : Ordered members) {name : String} {value value' : α}
    (hv : (name, value) ∈ members) (hv' : (name, value') ∈ members) : value = value' := by
  induction members with
  | nil => cases hv
  | cons m members ih =>
    obtain ⟨hm, hmembers⟩ := List.pairwise_cons.1 h
    rcases List.mem_cons.1 hv with rfl | hv <;> rcases List.mem_cons.1 hv' with hv' | hv'
    · exact (congrArg Prod.snd hv').symm
    · exact (hm _ hv').false.elim
    · exact (hv' ▸ hm _ hv).false.elim
    · exact ih hmembers hv hv'

end Json

/-! ## Tables -/

namespace Payload.File

variable {f : File} {code reference key : String} {record first : Json}

/-- The tables of a file stand in the order of their keys. -/
structure Ordered (f : File) : Prop where
  shipments : Json.Ordered f.shipments
  cartons : Json.Ordered f.cartons

theorem ordered_of_ofText? {s : String} (h : ofText? s = some f) : f.Ordered := by
  obtain ⟨json, -, h⟩ := Option.bind_eq_some_iff.1 h
  obtain ⟨parts, -, h⟩ := Option.bind_eq_some_iff.1 h
  obtain ⟨shipments, hshipments, h⟩ := Option.bind_eq_some_iff.1 h
  obtain ⟨cartons, hcartons, h⟩ := Option.bind_eq_some_iff.1 h
  cases h
  exact ⟨Json.ordered_withDefault hshipments, Json.ordered_withDefault hcartons⟩

theorem mem_of_lookup? {table : List (String × Json)} {value : Json}
    (h : lookup? table key = some value) : (key, value) ∈ table := by
  obtain ⟨⟨name, _⟩, hfound, rfl⟩ := Option.map_eq_some_iff.1 h
  obtain rfl : name = key := by simpa using List.find?_some hfound
  exact List.mem_of_find?_eq_some hfound

/-- A shipment that lists codes is known. -/
theorem exists_shipment (h : f.codes reference ≠ []) :
    ∃ shipment, lookup? f.shipments reference = some shipment := by
  cases hshipment : lookup? f.shipments reference with
  | some shipment => exact ⟨shipment, rfl⟩
  | none =>
    rw [codes, hshipment] at h
    exact (h rfl).elim

/-! ## Records in lists -/

/-- A shipment lists one record of a code. -/
structure ListsOnce (f : File) (reference code : String) (record : Json) : Prop where
  listed : ∃ shipment, lookup? f.shipments reference = some shipment ∧
    (listed shipment).filter (isInline code) = [record]

/-- The first record of a code: no shipment of a smaller key lists any. -/
structure FirstRecord (f : File) (code key : String) (record : Json) : Prop where
  listed : ∃ shipment, (key, shipment) ∈ f.shipments ∧
    (listed shipment).find? (isInline code) = some record
  least : ∀ e ∈ f.shipments, e.1 < key → ∀ item ∈ File.listed e.2, isInline code item = false

theorem ListsOnce.find? (h : f.ListsOnce reference code record) : ∃ shipment,
    (reference, shipment) ∈ f.shipments ∧
      (File.listed shipment).find? (isInline code) = some record := by
  obtain ⟨shipment, hshipment, hlisted⟩ := h.listed
  refine ⟨shipment, mem_of_lookup? hshipment, ?_⟩
  rw [← List.head?_filter, hlisted]
  rfl

theorem isInline_eq {item : Json} (h : isInline code item = true) : code? item = some code := by
  unfold isInline at h
  split at h
  · simpa using h
  · cases h

/-- A record that a shipment lists has a label. -/
theorem ListsOnce.mem_codes (h : f.ListsOnce reference code record) : code ∈ f.codes reference := by
  obtain ⟨shipment, hshipment, hlisted⟩ := h.listed
  have hmem : record ∈ (File.listed shipment).filter (isInline code) := by simp [hlisted]
  obtain ⟨hmem, hinline⟩ := List.mem_filter.1 hmem
  unfold codes
  rw [hshipment]
  exact List.mem_filterMap.2 ⟨record, hmem, isInline_eq hinline⟩

/-- A carton that a shipment lists as a record is known. -/
theorem ListsOnce.exists_carton (h : f.ListsOnce reference code record) :
    ∃ carton, f.carton? code = some carton := by
  obtain ⟨shipment, hmem, hfind⟩ := h.find?
  have hsome : ((f.shipments.flatMap fun s => File.listed s.2).find? (isInline code)).isSome := by
    rw [List.find?_isSome]
    exact ⟨record, List.mem_flatMap.2 ⟨_, hmem, List.mem_of_find?_eq_some hfind⟩,
      List.find?_some hfind⟩
  refine Option.isSome_iff_exists.1 ?_
  rw [carton?, Option.isSome_or, hsome, Bool.or_true]

/-- A carton that the table does not have is the first record of its code. -/
theorem exists_firstRecord (hf : f.Ordered) (hcode : lookup? f.cartons code = none)
    (h : f.carton? code = some first) : ∃ key, f.FirstRecord code key first := by
  rw [carton?, hcode, Option.none_or, List.find?_flatMap] at h
  obtain ⟨before, ⟨key, shipment⟩, after, hshipments, hfind, hbefore⟩ :=
    List.findSome?_eq_some_iff.1 h
  have hordered := hf.shipments
  rw [hshipments] at hordered
  obtain ⟨-, hrest, -⟩ := List.pairwise_append.1 hordered
  refine ⟨key, ⟨shipment, by simp [hshipments], hfind⟩, fun e he hlt item hitem => ?_⟩
  rw [hshipments] at he
  rcases List.mem_append.1 he with he | he
  · simpa using List.find?_eq_none.1 (hbefore e he) item hitem
  · rcases List.mem_cons.1 he with rfl | he
    · exact (lt_irrefl _ hlt).elim
    · exact (lt_asymm hlt ((List.pairwise_cons.1 hrest).1 e he)).elim

/-- The first record of a code comes from a given shipment that lists one, or from one before it. -/
theorem FirstRecord.le (h : f.FirstRecord code key first)
    (hlists : f.ListsOnce reference code record) : key ≤ reference := by
  refine not_lt.1 fun hlt => ?_
  obtain ⟨shipment, hmem, hfind⟩ := hlists.find?
  have hnone := h.least _ hmem hlt record (List.mem_of_find?_eq_some hfind)
  cases hnone.symm.trans (List.find?_some hfind)

/-- Of the given shipment, the first record is the one that it lists. -/
theorem FirstRecord.eq (hf : f.Ordered) (h : f.FirstRecord code reference first)
    (hlists : f.ListsOnce reference code record) : first = record := by
  obtain ⟨shipment, hmem, hfind⟩ := h.listed
  obtain ⟨shipment', hmem', hfind'⟩ := hlists.find?
  obtain rfl := hf.shipments.eq_of_mem hmem hmem'
  exact Option.some.inj (hfind.symm.trans hfind')

end Payload.File

end Waybill
