/-
  The files of an archive are read back.

  An archive is the files with their headers, the directory, and the last record.  The record is
  found from the end on; it leads to the directory, whose entries lead to the files.

  * `Fits` says when an archive can hold some files: its fields are wide enough for their number,
    their names and all sizes; `zipFitting` refuses files that do not fit.

  Statements: `number_append` and `number_littleEndian` (a field is read after the ones before it),
  `contentAt?_packOne`, `entries?_packAll` (the directory, by induction on the files),
  `unpack?_pack`, `unzip_zip`, `readsBack_zipFitting`.
-/
import Waybill.Archive.Zip
import Waybill.Proofs.Archive.Deflate
import Waybill.Proofs.Text.Utf8

namespace Waybill.Archive

/-! ## Fields -/

theorem number_append {xs ys : List UInt8} {offset width : Nat} (h : xs.length ≤ offset) :
    number (xs ++ ys) offset width = number ys (offset - xs.length) width := by
  rw [number, number, List.drop_append, List.drop_eq_nil_of_le h, List.nil_append]

theorem number_littleEndian {width x : Nat} (h : x < 256 ^ width) (rest : List UInt8) :
    number (littleEndian width x ++ rest) 0 width = x := by
  rw [number, List.drop_zero, List.take_left' (length_littleEndian width x),
    ofLittleEndian_littleEndian h]

@[simp] theorem length_fileMark : fileMark.length = 4 := by decide

@[simp] theorem length_directoryMark : directoryMark.length = 4 := by decide

@[simp] theorem length_endMark : endMark.length = 4 := by decide

@[simp] theorem length_facts (e : Entry) (packed : List UInt8) : (facts e packed).length = 24 := by
  simp [facts]

theorem length_name (e : Entry) : e.name.toUTF8.data.toList.length = e.name.utf8ByteSize := by
  rfl

/-! ## Files -/

/-- The content of a file is read at its header. -/
theorem contentAt?_packOne {bytes before after : List UInt8} {offset : Nat} {e : Entry}
    (h : bytes = before ++ ((packOne offset e).1 ++ after)) (hbefore : before.length = offset)
    (hname : e.name.utf8ByteSize < 256 ^ 2) :
    contentAt? bytes offset 8 (deflate e.content).length = some e.content := by
  let header := fileMark ++ (facts e (deflate e.content) ++ (littleEndian 2 0 ++
    (e.name.toUTF8.data.toList ++ (deflate e.content ++ after))))
  have hheader : bytes.drop offset = header := by
    rw [h, List.drop_left' hbefore, packOne]
    simp only [List.append_assoc, header]
  have hsize : number header 26 2 = e.name.utf8ByteSize := by
    simp [header, facts, number_append, number_littleEndian hname]
  have hextra : number header 28 2 = 0 := by
    simp [header, number_append, number_littleEndian]
  have hrest : header.drop (30 + e.name.utf8ByteSize + 0) = deflate e.content ++ after := by
    have hsplit : header = (fileMark ++ facts e (deflate e.content) ++ littleEndian 2 0 ++
        e.name.toUTF8.data.toList) ++ (deflate e.content ++ after) := by
      simp only [List.append_assoc, header]
    rw [hsplit, List.drop_left']
    simp only [List.length_append, length_fileMark, length_facts, length_littleEndian, length_name]
    omega
  have hmark : fileMark.isPrefixOf header := List.isPrefixOf_iff_prefix.2 (List.prefix_append _ _)
  rw [contentAt?, hheader]
  dsimp only
  rw [hmark, hsize, hextra, hrest, List.take_left]
  simp [inflate?_deflate]

/-- What the bytes of a directory say at their front, where a file has its entry: its packed size,
    its place, its checksum and its name.  The rest of the directory follows. -/
structure Enters (directory : List UInt8) (offset : Nat) (e : Entry) (rest : List UInt8) :
    Prop where
  mark : directoryMark.isPrefixOf directory
  enough : 46 ≤ directory.length
  method : number directory 10 2 = 8
  check : number directory 16 4 = (crc32 e.content).toNat
  size : number directory 20 4 = (deflate e.content).length
  nameSize : number directory 28 2 = e.name.utf8ByteSize
  further : number directory 30 2 = 0
  comment : number directory 32 2 = 0
  place : number directory 42 4 = offset
  name : (directory.drop 46).take e.name.utf8ByteSize = e.name.toUTF8.data.toList
  rest : directory.drop (46 + e.name.utf8ByteSize) = rest

theorem enters_packOne {offset : Nat} {e : Entry} (hname : e.name.utf8ByteSize < 256 ^ 2)
    (hpacked : (deflate e.content).length < 256 ^ 4) (hoffset : offset < 256 ^ 4)
    (rest : List UInt8) : Enters ((packOne offset e).2 ++ rest) offset e rest := by
  have hcrc : (crc32 e.content).toNat < 256 ^ 4 := (crc32 e.content).toNat_lt
  have hzeros : List.replicate 12 (0 : UInt8) =
      littleEndian 2 0 ++ (littleEndian 2 0 ++ littleEndian 8 0) := by decide
  let front := directoryMark ++ (littleEndian 2 20 ++ (facts e (deflate e.content) ++
    (littleEndian 2 0 ++ (littleEndian 2 0 ++ (littleEndian 8 0 ++ littleEndian 4 offset)))))
  have hfront : front.length = 46 := by simp [front]
  have hdirectory : (packOne offset e).2 ++ rest =
      front ++ (e.name.toUTF8.data.toList ++ rest) := by
    rw [packOne, hzeros]
    simp only [List.append_assoc, front]
  have hnamed : ((packOne offset e).2 ++ rest).drop 46 = e.name.toUTF8.data.toList ++ rest := by
    rw [hdirectory, List.drop_left' hfront]
  exact {
    mark := by
      rw [hdirectory, List.append_assoc]
      exact List.isPrefixOf_iff_prefix.2 (List.prefix_append _ _)
    enough := by
      rw [hdirectory, List.length_append, hfront]
      omega
    method := by
      rw [hdirectory]
      simp [front, facts, number_append, number_littleEndian]
    check := by
      rw [hdirectory]
      simp [front, facts, number_append, number_littleEndian hcrc]
    size := by
      rw [hdirectory]
      simp [front, facts, number_append, number_littleEndian hpacked]
    nameSize := by
      rw [hdirectory]
      simp [front, facts, number_append, number_littleEndian hname]
    further := by
      rw [hdirectory]
      simp [front, number_append, number_littleEndian]
    comment := by
      rw [hdirectory]
      simp [front, number_append, number_littleEndian]
    place := by
      rw [hdirectory]
      simp [front, number_append, number_littleEndian hoffset]
    name := by rw [hnamed, List.take_left' (length_name e)]
    rest := by rw [← List.drop_drop, hnamed, List.drop_left' (length_name e)] }

/-- The entries of a directory lead to their files. -/
theorem entries?_packAll {bytes : List UInt8} (hsize : bytes.length < 256 ^ 4) (es : List Entry)
    (hes : ∀ e ∈ es, e.compressed = true ∧ e.name.utf8ByteSize < 256 ^ 2)
    {before after rest : List UInt8} {offset : Nat} (hbefore : before.length = offset)
    (h : bytes = before ++ ((packAll offset es).1 ++ after)) :
    entries? bytes es.length ((packAll offset es).2 ++ rest) = some es := by
  induction es generalizing before offset with
  | nil => rfl
  | cons e es ih =>
    obtain ⟨⟨hcompressed, hname⟩, hes⟩ := List.forall_mem_cons.1 hes
    let later := packAll (offset + (packOne offset e).1.length) es
    have hone : bytes = before ++ ((packOne offset e).1 ++ (later.1 ++ after)) := by
      rw [h, packAll]
      simp only [List.append_assoc, later]
    have hlater : bytes = (before ++ (packOne offset e).1) ++ (later.1 ++ after) := by
      rw [hone, List.append_assoc]
    have hoffset : offset < 256 ^ 4 := by
      rw [h, List.length_append] at hsize
      omega
    have hpacked : (deflate e.content).length < 256 ^ 4 := by
      rw [hone] at hsize
      simp only [packOne, List.length_append] at hsize
      omega
    have henters := enters_packOne hname hpacked hoffset (later.2 ++ rest)
    have hdirectory : (packAll offset (e :: es)).2 ++ rest =
        (packOne offset e).2 ++ (later.2 ++ rest) := by
      rw [packAll]
      simp only [List.append_assoc, later]
    have hcontent := contentAt?_packOne hone hbefore hname
    have hrest := ih hes (by rw [List.length_append, hbefore]) hlater
    rw [hdirectory, List.length_cons, entries?]
    generalize (packOne offset e).2 ++ (later.2 ++ rest) = directory at henters
    obtain ⟨name, compressed, content⟩ := e
    obtain rfl : compressed = true := hcompressed
    have hnofewer : ¬ directory.length < 46 := Nat.not_lt.2 henters.enough
    rw [henters.mark, henters.method, henters.check, henters.size, henters.nameSize,
      henters.further, henters.comment, henters.place]
    simp [hnofewer, hcontent, henters.name, henters.rest, Text.decodeChars_toByteArray, hrest, later]

/-! ## Archives -/

/-- The last record is found from the end on. -/
theorem endRecord?_append (xs before after : List UInt8) (h : xs.length + after.length < 22) :
    endRecord? (xs ++ before) after = endRecord? before (xs.reverse ++ after) := by
  induction xs generalizing after with
  | nil => rfl
  | cons x xs ih =>
    rw [List.length_cons] at h
    rw [List.cons_append, endRecord?, if_neg, ih _ (by rw [List.length_cons]; omega)]
    · simp
    · simp only [List.length_cons, Bool.and_eq_true, decide_eq_true_eq, not_and]
      omega

/-- When an archive can hold some files. -/
structure Fits (entries : List Entry) : Prop where
  compressed : ∀ e ∈ entries, e.compressed = true
  names : ∀ e ∈ entries, e.name.utf8ByteSize ≤ maxNameSize
  count : entries.length < 2 ^ 16
  size : (pack entries).length < 2 ^ 32

theorem fits_iff {entries : List Entry} : Fits entries ↔ (∀ e ∈ entries, e.compressed = true) ∧
    (∀ e ∈ entries, e.name.utf8ByteSize ≤ maxNameSize) ∧ entries.length < 2 ^ 16 ∧
      (pack entries).length < 2 ^ 32 :=
  ⟨fun ⟨compressed, names, count, size⟩ => ⟨compressed, names, count, size⟩,
    fun ⟨compressed, names, count, size⟩ => ⟨compressed, names, count, size⟩⟩

instance (entries : List Entry) : Decidable (Fits entries) :=
  decidable_of_iff _ fits_iff.symm

/-- **The files of an archive are read back.** -/
theorem unpack?_pack {entries : List Entry} (h : Fits entries) :
    unpack? (pack entries) = some entries := by
  have hcount : entries.length < 256 ^ 2 := h.count
  have hsize : (pack entries).length < 256 ^ 4 := h.size
  let all := packAll 0 entries
  let record := endMark ++ (littleEndian 4 0 ++ (littleEndian 2 entries.length ++
    (littleEndian 2 entries.length ++ (littleEndian 4 all.2.length ++
      (littleEndian 4 all.1.length ++ littleEndian 2 0)))))
  have hpack : pack entries = all.1 ++ (all.2 ++ record) := by
    rw [pack]
    simp only [List.append_assoc, all, record]
  have hplace : all.1.length < 256 ^ 4 := by
    rw [hpack, List.length_append] at hsize
    omega
  have hrecord : endRecord? (pack entries).reverse [] = some record := by
    let later := record.tail
    have hlater : record = 0x50 :: later := rfl
    have hlength : later.length = 21 := by simp [record, later, endMark]
    have hmark : endMark.isPrefixOf record := List.isPrefixOf_iff_prefix.2 (List.prefix_append _ _)
    have hbytes : (pack entries).reverse =
        later.reverse ++ 0x50 :: (all.2.reverse ++ all.1.reverse) := by
      rw [hpack, hlater]
      simp
    rw [hbytes, endRecord?_append _ _ _ (by simp [hlength]), List.reverse_reverse,
      List.append_nil, endRecord?, ← hlater, hmark]
    simp [hlater, hlength]
  have hcountread : number record 10 2 = entries.length := by
    simp [record, number_append, number_littleEndian hcount]
  have hplaceread : number record 16 4 = all.1.length := by
    simp [record, number_append, number_littleEndian hplace]
  rw [unpack?, hrecord, Option.bind_eq_bind, Option.bind_some, hcountread, hplaceread]
  have hdirectory : (pack entries).drop all.1.length = all.2 ++ record := by
    rw [hpack, List.drop_left]
  rw [hdirectory]
  exact entries?_packAll hsize entries
    (fun e he => ⟨h.compressed e he, Nat.lt_succ_of_le (h.names e he)⟩) List.length_nil hpack

/-- What an archive of some files is, if there is one. -/
theorem zip_eq_ok {entries : List Entry} {bytes : ByteArray} :
    zip entries = .ok bytes ↔ (entries.map (·.name)).Nodup ∧
      (∀ e ∈ entries, e.name.utf8ByteSize ≤ maxNameSize) ∧ bytes = ⟨(pack entries).toArray⟩ := by
  unfold zip
  cases hrepeats : repeats (entries.map (·.name)) with
  | true =>
    have hclash : ¬ (entries.map (·.name)).Nodup := fun hdistinct => by
      cases hrepeats.symm.trans (repeats_eq_false.2 hdistinct)
    simp [hclash]
  | false =>
    have hdistinct := repeats_eq_false.1 hrepeats
    rw [if_neg (by decide)]
    split
    · next hlong =>
      obtain ⟨e, he, hlong⟩ := List.any_eq_true.1 hlong
      have hlong := of_decide_eq_true hlong
      simp only [reduceCtorEq, false_iff]
      exact fun h => absurd (h.2.1 e he) (Nat.not_le.2 hlong)
    · next hshort =>
      have hshort : ∀ e ∈ entries, e.name.utf8ByteSize ≤ maxNameSize := by simpa using hshort
      simp only [Except.ok.injEq, hdistinct, true_and]
      exact ⟨fun h => ⟨hshort, h.symm⟩, fun h => h.2.symm⟩

/-- **Files are read from the archive that they are written into.** -/
theorem unzip_zip {entries : List Entry} {bytes : ByteArray} (h : Fits entries)
    (hzip : zip entries = .ok bytes) : unzip bytes = some entries := by
  obtain ⟨-, -, rfl⟩ := zip_eq_ok.1 hzip
  exact unpack?_pack h

/-- Writes an archive of files that fit. -/
def zipFitting : Writer := fun entries =>
  if Fits entries then zip entries else .error "the files do not fit"

theorem readsBack_zipFitting : ReadsBack unzip zipFitting := by
  intro entries bytes h
  unfold zipFitting at h
  split at h
  · next hfits => exact unzip_zip hfits h
  · cases h

end Waybill.Archive
