/-
  Documents, but for the numbers that the store gives and for times.

  * `Record` is a version without its number in the store and its time, `Content` a document with
    its template, its rules and its versions; `Store.contentAt` finds it by code and label;
  * `DocumentEntry.applied` is what importing an entry of a catalog makes of a content.

  Statements: one lemma for each action of an import, which says what it does to contents:
  `contentAt_upsertPack`, `contentAt_importDocument`, `contentAt_rejected` and
  `contentAt_disableUnlisted`.
-/
import Waybill.Proofs.Catalog.Rejection

namespace Waybill

open Waybill.Mapping Waybill.History Waybill.Store Waybill.Table

/-! ## Contents -/

/-- A version, but for its number in the store, its document and its time. -/
@[ext]
structure Record where
  number : Nat
  template : Option TemplateFile
  snapshot : Snapshot
  change : Field ChangeType
  note : String
  createdBy : Option String
  deriving DecidableEq

/-- What is recorded by a row. -/
def VersionRow.record (row : VersionRow) : Record :=
  ⟨row.number, row.template, row.snapshot, row.change, row.note, row.createdBy⟩

/-- A document by what is printed: its place, whether it is enabled, the template that counts, the
    live rules, and its versions. -/
@[ext]
structure Content where
  sequence : Nat
  enabled : Bool
  template : Option TemplateFile
  rules : List Rule
  history : List Record
  deriving DecidableEq

/-- The content of an entry. -/
def Entry.content (e : Entry) : Content where
  sequence := e.row.sequence
  enabled := e.row.enabled
  template := e.template
  rules := e.rules.map (·.rule)
  history := e.versions.map (·.record)

/-- The content of a document, by the code of its pack and its type and variant. -/
def Store.contentAt (s : Store) (code : String) (label : String × String) : Option Content :=
  (s.packAt code).bind fun row => (s.entryAt (row.id, label)).map Entry.content

/-- The name that the template of a document gets in a version. -/
def snapshotNameOf (code : String) (label : String × String) : Nat → String :=
  Document.snapshotName ⟨0, 0, code, label.1, label.2, 0, false, none⟩

namespace Content

/-- A document that is not there yet. -/
def blank : Content := ⟨0, false, none, [], []⟩

/-- The content with the document disabled. -/
def disabled (c : Content) : Content := { c with enabled := false }

/-- Whether the content is not as a catalog says, or has no version yet. -/
def differs (c : Content) (named : Option TemplateFile) (rules : List Rule) : Bool :=
  (named.isSome && c.template != named) || c.history.isEmpty ||
    c.rules != inSequence (·.sequence) (Rule.normalizedAll rules)

/-- The version that an import records of a content. -/
def version (c : Content) (name : Nat → String) (user : Option String) : Record where
  number := c.history.length + 1
  template := c.template.map fun t => { t with name := name (c.history.length + 1) }
  snapshot := .rules c.rules
  change := .known .save
  note := Catalog.importNote
  createdBy := user

/-- The content with the template that is named, if one is, and with these rules. -/
def edited (c : Content) (named : Option TemplateFile) (rules : List Rule) : Content :=
  { c with
    template := if named.isSome then TemplateFile.present? named else c.template
    rules := inSequence (·.sequence) (Rule.normalizedAll rules) }

/-- The content with a version of it recorded by an import. -/
def recorded (c : Content) (name : Nat → String) (user : Option String) : Content :=
  { c with history := c.history ++ [c.version name user] }

end Content

namespace Catalog.DocumentEntry

/-- The content of a document after it was added or changed for an entry of a catalog. -/
def placed (d : DocumentEntry) (before : Option Content) : Content :=
  { before.getD .blank with sequence := d.sequence, enabled := d.enabled }

/-- The content of a document after an entry of a catalog was imported that names this template. -/
def applied (d : DocumentEntry) (code : String) (user : Option String)
    (named : Option TemplateFile) (before : Option Content) : Content :=
  if (d.placed before).differs named d.rules then
    ((d.placed before).edited named d.rules).recorded (snapshotNameOf code d.label) user
  else d.placed before

end Catalog.DocumentEntry

namespace Store

variable {s s' : Store} {code : String} {row : PackRow} {label : String × String}

theorem contentAt_eq (hat : s.packAt code = some row) (label : String × String) :
    s.contentAt code label = (s.entryAt (row.id, label)).map Entry.content := by
  rw [contentAt, hat, Option.bind_some]

theorem contentAt_congr (hpack : s'.packAt code = s.packAt code)
    (h : ∀ row, s.packAt code = some row → s'.entryAt (row.id, label) = s.entryAt (row.id, label)) :
    s'.contentAt code label = s.contentAt code label := by
  unfold contentAt
  rw [hpack]
  cases hat : s.packAt code with
  | none => rfl
  | some row => rw [Option.bind_some, Option.bind_some, h row hat]

/-- A document of another label, or of another pack, has another key. -/
theorem Sound.key_ne (hs : s.Sound) (hat : s.packAt code = some row) {code' : String}
    {row' : PackRow} (hat' : s.packAt code' = some row') {label' : String × String}
    (h : (code', label') ≠ (code, label)) : (row'.id, label') ≠ (row.id, label) := by
  intro hkey
  obtain ⟨hid, rfl⟩ := Prod.mk.injEq .. ▸ hkey
  by_cases hcode : code' = code
  · exact h (by rw [hcode])
  · exact hs.id_ne_of_code_ne hat' hat hcode hid

/-! ## Packs and documents that are dropped -/

/-- A pack that is added has no documents yet. -/
theorem entryAt_of_added (hs' : s'.Sound) (hs : s.Sound) {p : NewPack} {r : Pack}
    (h : upsertPack p s = .ok (r, s')) (hat : s.packAt p.code = none) :
    s.entryAt (r.id, label) = none := by
  obtain ⟨hat', -, hothers, -⟩ := lookup_upsertPack h
  refine entryAt_eq_none fun row hrow hkey => ?_
  have hpack : row.pack = r.id := congrArg Prod.fst hkey
  -- the pack of the row has another code, and so another number
  obtain ⟨pack, hmem, hid⟩ := hs.documentPacks row hrow
  have hfound := hs.packAt_eq hmem
  have hcode : pack.code ≠ p.code := by
    intro hcode
    rw [hcode, hat] at hfound
    cases hfound
  exact hs'.id_ne_of_code_ne ((hothers _ hcode).trans hfound) hat' hcode (hid.trans hpack)

theorem contentAt_upsertPack (hs : s.Sound) {p : NewPack} {r : Pack}
    (h : upsertPack p s = .ok (r, s')) (code : String) (label : String × String) :
    s'.contentAt code label = s.contentAt code label := by
  obtain ⟨hat', hnumber, hothers, hentries⟩ := lookup_upsertPack h
  by_cases hcode : code = p.code
  · subst hcode
    rw [contentAt_eq hat', hentries]
    cases hat : s.packAt p.code with
    | none =>
      have hnone : s.entryAt ((p.row r.id).id, label) = none :=
        entryAt_of_added (hs.upsertPack h) hs h hat
      rw [hnone, contentAt, hat]
      rfl
    | some row =>
      rw [contentAt_eq hat, hnumber row hat]
      rfl
  · exact contentAt_congr (hothers code hcode) fun _ _ => hentries _

/-- Documents of the pack that are not listed are disabled. -/
theorem contentAt_disableUnlisted (hs : s.Sound) (hat : s.packAt code = some row)
    {listed : List Id} {labels : List (String × String)}
    (hlisted : ∀ k e, s.entryAt k = some e → (e.row.id ∈ listed ↔ ∃ l ∈ labels, k = (row.id, l)))
    {n : Nat} (h : Catalog.disableUnlisted row.id listed s = .ok (n, s')) (code' : String)
    (label : String × String) :
    s'.contentAt code' label = if code' = code ∧ label ∉ labels then
      (s.contentAt code' label).map Content.disabled else s.contentAt code' label := by
  have hpacks : ∀ code, s'.packAt code = s.packAt code := fun code => by
    unfold packAt
    rw [(lookup_disableUnlisted hs h).1]
  split
  · next hdrop =>
    obtain ⟨rfl, hlabel⟩ := hdrop
    rw [contentAt_eq ((hpacks _).trans hat), contentAt_eq hat,
      entryAt_of_unlisted hs h rfl fun e he hmem => ?_, Option.map_map, Option.map_map]
    · rfl
    · obtain ⟨l, hl, heq⟩ := (hlisted _ e he).1 hmem
      obtain rfl : label = l := congrArg Prod.snd heq
      exact hlabel hl
  · next hkept =>
    refine contentAt_congr (hpacks code') fun row' hat' => entryAt_of_listed hs h fun hid e he => ?_
    by_cases hcode : code' = code
    · refine (hlisted _ e he).2 ⟨label, ?_, congrArg (·, label) hid⟩
      exact Classical.not_not.1 fun hlabel => hkept ⟨hcode, hlabel⟩
    · exact absurd hid (hs.id_ne_of_code_ne hat' hat hcode)

/-! ## Documents -/

/-- The document of an entry, as it is read. -/
theorem document?_of_entryAt (hs : s.Sound) (hat : s.packAt code = some row) {e : Entry}
    (he : s.entryAt (row.id, label) = some e) : s.document? e.row.id =
      some ⟨e.row.id, row.id, code, label.1, label.2, e.row.sequence, e.row.enabled,
        e.template⟩ := by
  obtain ⟨hmem, hkey, -⟩ := row_of_entryAt he
  obtain ⟨hrow, rfl⟩ := mem_of_packAt hat
  obtain ⟨hpack, rfl⟩ := Prod.mk.injEq .. ▸ hkey
  rw [document?, hs.documents.find?_eq hmem]
  change s.readDocument? e.row = _
  rw [readDocument?, hpack, hs.packs.find?_eq hrow]
  rfl

/-- How many versions an entry has tells the number of its next. -/
theorem Recorded.nextNumber_eq (hs : s.Recorded) {k : Id × String × String} {e : Entry}
    (he : s.entryAt k = some e) : s.nextNumber e.row.id = e.content.history.length + 1 := by
  rw [hs.nextNumber e.row.id, Entry.content, List.length_map,
    (row_of_entryAt he).2.2]
  rfl

/-- A document that was added or changed has its place, and all else is as it was. -/
theorem content_of_upsertDocument (hs : s.Recorded) {d : Catalog.DocumentEntry} {pack : Id}
    {live : Document} (h : upsertDocument (d.wanted pack) s = .ok (live, s')) :
    ∃ e, s'.entryAt (pack, d.label) = some e ∧ e.row.id = live.id ∧
      e.content = d.placed ((s.entryAt (pack, d.label)).map Entry.content) ∧
      ∀ named, Catalog.differs s' live named d.rules = e.content.differs named d.rules := by
  have hs' := hs.quiet (quiet_upsertDocument _ _ _ _ h)
  obtain ⟨e, he, hid, htemplate, -⟩ := Catalog.exists_placed hs.sound h
  have hplaced := (placing_of_upsertDocument hs.sound h).document
  rw [Catalog.key_wanted] at he hplaced
  refine ⟨e, he, hid, ?_, fun named => ?_⟩
  · obtain rfl : _ = e := Option.some.inj (hplaced.symm.trans he)
    cases s.entryAt (pack, d.label) <;> rfl
  · have hrules : s'.rulesOf live.id = e.content.rules := by
      rw [← hid, Entry.content, (row_of_entryAt he).2.2]
      rfl
    have hnext := hs'.nextNumber_eq he
    unfold Catalog.differs Content.differs
    rw [hrules, ← htemplate, ← hid, hnext]
    cases e.content.history <;> rfl

end Store

theorem Catalog.trim_importNote : Text.trim Catalog.importNote = Catalog.importNote := by
  cbv

/-- What an import makes of a document of which it records a version. -/
theorem History.Commit.content {s s' : Store} {code : String} {label : String × String}
    {row : PackRow} {e : Entry} {named : Option TemplateFile} {rules : List Rule}
    {signature : Signature} {v : Version} (hs : s.Recorded) (hat : s.packAt code = some row)
    (he : s.entryAt (row.id, label) = some e)
    (h : Commit s e.row.id ⟨named.map some, some rules⟩ signature .save Catalog.importNote v s') :
    ∃ e', s'.entryAt (row.id, label) = some e' ∧
      e'.content =
        (e.content.edited named rules).recorded (snapshotNameOf code label) signature.user := by
  obtain ⟨hpacks, hentries⟩ := h.lookup
  have he' := hentries (row.id, label)
  rw [he, Option.map_some, if_pos rfl] at he'
  have hat' : s'.packAt code = some row := by
    rw [packAt, hpacks]
    exact hat
  have htemplate : TemplateFile.present? ((named.map some).getD e.row.template) =
      (e.content.edited named rules).template := by
    cases named <;> rfl
  have hrules : (s'.ruleRows e.row.id).map (·.rule) = (e.content.edited named rules).rules :=
    h.rulesOf
  -- the version is told from the document as it is read afterwards
  obtain ⟨doc, hdoc, hv⟩ := h.eq_snapshot
  have hread := document?_of_entryAt (h.sound hs.sound) hat' he'
  obtain rfl : _ = doc := Option.some.inj (hread.symm.trans hdoc)
  have hversion : v.row.record =
      (e.content.edited named rules).version (snapshotNameOf code label) signature.user := by
    have hnumber := hs.nextNumber_eq he
    rw [hv]
    refine Record.ext hnumber ?_ (congrArg Snapshot.rules hrules) rfl Catalog.trim_importNote rfl
    simp only [Version.row, VersionRow.record, Content.version, ← htemplate, hnumber]
    rfl
  refine ⟨_, he', Content.ext rfl rfl htemplate hrules ?_⟩
  change (s'.versionRows e.row.id).map (·.record) = e.content.history ++ _
  rw [h.versionRows, List.map_append, List.map_singleton, hversion, Entry.content,
    (row_of_entryAt he).2.2]
  rfl

namespace Catalog

variable {setting : Setting} {s s' : Store} {code : String} {row : PackRow} {d : DocumentEntry}

/-- What importing a document makes of its content. -/
theorem contentAt_importDocument (hs : s.Recorded) (hat : s.packAt code = some row)
    {r : Id × Bool} (h : importDocument setting row.id d s = (.ok r, s')) :
    (∃ named, setting.template d = .ok named ∧ s'.contentAt code d.label =
        some (d.applied code setting.signature.user named (s.contentAt code d.label))) ∧
      ∀ code' label, (code', label) ≠ (code, d.label) →
        s'.contentAt code' label = s.contentAt code' label := by
  have hframe := importDocument_frame hs.sound h
  have hpacks : ∀ code, s'.packAt code = s.packAt code := packAt_congr hframe.packs
  refine ⟨?_, fun code' label hne => contentAt_congr (hpacks code') fun row' hat' => ?_⟩
  · obtain ⟨named, live, s₁, hnamed, hupsert, -, hafter⟩ := importDocument_eq_ok.1 h
    have hs₁ := hs.quiet (quiet_upsertDocument _ _ _ _ hupsert)
    obtain ⟨e, he, hid, hcontent, hdiffers⟩ := content_of_upsertDocument hs hupsert
    rw [← contentAt_eq hat] at hcontent
    have hat₁ : s₁.packAt code = some row :=
      (packAt_congr (entryAt_upsertDocument hs.sound hupsert).1 code).trans hat
    refine ⟨named, hnamed, ?_⟩
    rw [contentAt_eq ((hpacks code).trans hat), DocumentEntry.applied, ← hcontent, ← hdiffers]
    split at hafter
    · next hd =>
      obtain ⟨v, hedit⟩ := hafter
      rw [← hid] at hedit
      obtain ⟨e', he', hedited⟩ := ((saveEdit_eq_ok hs₁.sound).1 hedit).content hs₁ hat₁ he
      rw [if_pos hd, he', Option.map_some, hedited]
    · next hd =>
      obtain rfl := hafter
      rw [if_neg hd, he, Option.map_some]
  · refine hframe.others _ (List.forall_mem_singleton.2 ?_)
    exact hs.sound.key_ne hat hat' hne

/-- What a rejected entry leaves of the content of its document. -/
theorem contentAt_rejected (hs : s.Recorded) (hat : s.packAt code = some row) {e : CatalogError}
    (h : Rejected setting row.id d s e s') (code' : String) (label : String × String) :
    s'.contentAt code' label = s.contentAt code' label ∨
      (code', label) = (code, d.label) ∧
        (∃ offence, checkRules d.rules = .error offence) ∧
        s'.contentAt code' label = some (d.placed (s.contentAt code d.label)) := by
  cases h with
  | unreadable => exact Or.inl rfl
  | offending _ rules upsert =>
    have hpacks : ∀ code, s'.packAt code = s.packAt code :=
      packAt_congr (entryAt_upsertDocument hs.sound upsert).1
    by_cases hkey : (code', label) = (code, d.label)
    · obtain ⟨rfl, rfl⟩ := Prod.mk.injEq .. ▸ hkey
      obtain ⟨e, he, -, hcontent, -⟩ := content_of_upsertDocument hs upsert
      refine Or.inr ⟨rfl, ⟨_, rules⟩, ?_⟩
      rw [contentAt_eq ((hpacks _).trans hat), he, Option.map_some, hcontent, contentAt_eq hat]
    · refine Or.inl (contentAt_congr (hpacks code') fun row' hat' => ?_)
      exact (placing_of_upsertDocument hs.sound upsert).others _
        (hs.sound.key_ne hat hat' hkey)

end Catalog

end Waybill
