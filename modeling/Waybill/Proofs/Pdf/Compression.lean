/-
  Streams stored in fewer bytes mean what they meant.

  * `Lossless`: what is compressed is read back;
  * `Object.meant` is an object with the content that the filters of a stream stand for;
  * `Object.Compressible`: a stream without a filter has no parameters of one, which would be taken
    for those of the filter that it gets.

  Statements: `find?_compress` and `rename_compressed` (each object is compressed by itself, under
  any references), `meant_compressed` (what a stream means stays), `lossless_zlib`.
-/
import Waybill.Pdf.Filter
import Waybill.Proofs.Archive.Deflate
import Waybill.Proofs.Pdf.Objects

namespace Waybill.Pdf

variable {zlib : Compressor}

/-! ## Compressed objects -/

theorem find?_compress (zlib : Compressor) (d : Document) (r : Ref) :
    (d.compress zlib).find? r = (d.find? r).map (·.compressed zlib) :=
  Objects.find?_map d.objects (fun _ o => o.compressed zlib) r

theorem dict?_compressed (o : Object) : (o.compressed zlib).dict? = o.dict? := by
  cases o with
  | stream entries content =>
    dsimp only [Object.compressed]
    split <;> rfl
  | _ => rfl

theorem typeName?_compressed (o : Object) : (o.compressed zlib).typeName? = o.typeName? := by
  rw [Object.typeName?, dict?_compressed, Object.typeName?]

theorem rename_compressed (f : Ref → Ref) (o : Object) :
    (o.compressed zlib).rename f = (o.rename f).compressed zlib := by
  cases o with
  | stream entries content =>
    simp only [Object.compressed, Object.rename, has_renameEntries]
    split
    · rw [Object.rename, ← set_renameEntries, ← set_renameEntries]
      rfl
    · rfl
  | _ => rfl

/-- A compressed object refers to nothing new. -/
theorem mem_refs_of_compressed {o : Object} {r : Ref} (h : r ∈ (o.compressed zlib).refs) :
    r ∈ o.refs := by
  cases o with
  | stream entries content =>
    dsimp only [Object.compressed] at h
    split at h
    · refine (mem_refsOfEntries_set h).elim (fun h => by cases h) fun h => ?_
      exact (mem_refsOfEntries_set h).elim (fun h => by cases h) id
    · exact h
  | _ => exact h

/-! ## What streams mean -/

/-- What is compressed is read back. -/
def Lossless (zlib : Compressor) : Prop :=
  ∀ bytes, Archive.inflate? ((zlib bytes).drop 2) = some bytes

theorem lossless_zlib : Lossless Archive.zlib :=
  Archive.inflate?_zlib

/-- The object as it is meant: a stream has the content that its filters stand for. -/
def Object.meant : Object → Object
  | .stream entries content =>
    match decoded? entries content with
    | some bytes => .stream ((Dict.erase "Filter" entries).erase "Length") bytes
    | none => .stream (Dict.erase "Length" entries) content
  | o => o

/-- A stream without a filter has no parameters of one. -/
def Object.Compressible : Object → Prop
  | .stream entries _ =>
    Dict.get? "Filter" entries = none → Dict.get? "DecodeParms" entries = none
  | _ => True

theorem decoded?_of_no_filter {d : Dict} (h : d.get? "Filter" = none) (content : List UInt8) :
    decoded? d content = none := by
  simp [decoded?, filters, h]

/-- What is compressed is decoded, unless there are parameters. -/
theorem decoded?_flate (hz : Lossless zlib) {d : Dict}
    (hfilter : d.get? "Filter" = some (.name "FlateDecode")) (hparms : d.get? "DecodeParms" = none)
    (content : List UInt8) : decoded? d (zlib content) = some content := by
  have hplain : restored [] = id := rfl
  simp [decoded?, filters, hfilter, hparms, hz content, hplain]

theorem erase_comm (name other : String) (d : Dict) :
    (d.erase name).erase other = (d.erase other).erase name := by
  simp only [Dict.erase, List.filter_filter, Bool.and_comm]

theorem erase_of_get?_eq_none {name : String} {d : Dict} (h : d.get? name = none) :
    d.erase name = d := by
  induction d with
  | nil => rfl
  | cons e d ih =>
    obtain ⟨n, o⟩ := e
    rw [Dict.get?] at h
    split at h
    · cases h
    · next hn =>
      rw [Dict.erase, List.filter_cons_of_pos (by simpa using hn)]
      exact congrArg _ (ih h)

/-- **A compressed object means what it meant.** -/
theorem meant_compressed (hz : Lossless zlib) {o : Object} (ho : o.Compressible) :
    (o.compressed zlib).meant = o.meant := by
  cases o with
  | stream entries content =>
    dsimp only [Object.compressed]
    split
    · next h =>
      have hfilter : Dict.get? "Filter" entries = none := by
        simpa [Dict.has] using (Bool.and_eq_true_iff.1 h).1
      have hdecoded : decoded? ((Dict.set "Filter" (.name "FlateDecode") entries).set "Length"
          (.int (zlib content).length)) (zlib content) = some content :=
        decoded?_flate hz (by simp [Dict.get?_set]) (by simp [Dict.get?_set, ho hfilter]) content
      simp only [Object.meant, hdecoded, decoded?_of_no_filter hfilter]
      rw [erase_comm, erase_set, erase_comm, erase_set, erase_of_get?_eq_none hfilter]
    · rfl
  | _ => rfl

theorem restored_renameEntries (f : Ref → Ref) (d : Dict) (bytes : List UInt8) :
    restored (renameEntries f d) bytes = restored d bytes := by
  have hint : ∀ name, (Dict.get? name (renameEntries f d)).bind Object.int? =
      (d.get? name).bind Object.int? := fun name => by
    rw [get?_renameEntries]
    cases d.get? name with
    | none => rfl
    | some o => cases o <;> rfl
  simp only [restored, hint]

theorem filters_renameEntries (f : Ref → Ref) (d : Dict) :
    filters (renameEntries f d) = filters d := by
  unfold filters
  rw [get?_renameEntries]
  cases d.get? "Filter" with
  | none => rfl
  | some o =>
    cases o with
    | array items =>
      simp only [Option.map_some, Object.rename, renameItems_eq_map, List.map_map]
      exact List.map_congr_left fun o _ => name?_rename f o
    | _ => rfl

theorem decoded?_renameEntries (f : Ref → Ref) (d : Dict) (content : List UInt8) :
    decoded? (renameEntries f d) content = decoded? d content := by
  have hparms : ∀ bytes, restored (((Dict.get? "DecodeParms" (renameEntries f d)).bind
      Object.dict?).getD []) bytes =
        restored (((d.get? "DecodeParms").bind Object.dict?).getD []) bytes := fun bytes => by
    rw [get?_renameEntries]
    cases d.get? "DecodeParms" with
    | none => rfl
    | some o =>
      cases o with
      | dict entries => exact restored_renameEntries f entries bytes
      | _ => rfl
  simp only [decoded?, filters_renameEntries, funext hparms]

theorem rename_meant (f : Ref → Ref) (o : Object) : o.meant.rename f = (o.rename f).meant := by
  cases o with
  | stream entries content =>
    simp only [Object.meant, Object.rename, decoded?_renameEntries]
    cases decoded? entries content <;> simp only [Object.rename, erase_renameEntries]
  | _ => rfl

/-- An object as it is meant refers to nothing new. -/
theorem mem_refs_of_meant {o : Object} {r : Ref} (h : r ∈ o.meant.refs) : r ∈ o.refs := by
  cases o with
  | stream entries content =>
    dsimp only [Object.meant] at h
    split at h
    · exact mem_refsOfEntries_of_erase _ (mem_refsOfEntries_of_erase _ h)
    · exact mem_refsOfEntries_of_erase _ h
  | _ => exact h

end Waybill.Pdf
