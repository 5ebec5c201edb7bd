/-
  The labels of a shipment, out of a payload file.

  A label of all cartons is printed for each code that the shipment lists.  A carton is looked up by
  its code alone, so what is printed may be a record of another shipment.

  * `FilledFor`: a spreadsheet is the template of a document filled for a shipment and a carton;
  * `Labels` are the spreadsheets of a label, one for each code of the shipment.

  Statements: `labels_of_rendering` (a label has all of its spreadsheets among those rendered),
  `labels_filled_from_first_record`; `label_shows_another_shipment`.
-/
import Waybill.Proofs.Generation.Fallback
import Waybill.Proofs.Payload.File

namespace Waybill.Generation

open Waybill.Payload Waybill.Store

/-! ## Spreadsheets of a carton -/

/-- The spreadsheet is the template of the document, filled for the shipment and the carton on
    some day. -/
def FilledFor (setting : Setting) (s : Store) (d : Document) (shipment carton : Value)
    (r : Rendered) : Prop :=
  ∃ template day, templateOf setting d = .ok template ∧
    filled setting.format template (s.rulesOf d.id)
      (payloadOf (some shipment) (some carton) d day) = .ok r.bytes

/-- The spreadsheets of a label for a shipment of a file: one for each code that the shipment lists,
    in that order, filled for the shipment and the carton of the code. -/
def Labels (f : File) (reference : String) (setting : Setting) (s : Store) (d : Document) :
    List Rendered → Prop :=
  List.Forall₂ (fun code r => ∃ shipment carton,
    File.lookup? f.shipments reference = some shipment ∧ f.carton? code = some carton ∧
      FilledFor setting s d (.ofJson shipment) (.ofJson carton) r) (f.codes reference)

section
variable {setting : Setting} {request : Request} {s : Store} {p : Plan} {d : Document}

theorem Renders.payload {carton : Value} {suffix : String} {j : Job}
    (h : Renders p d carton suffix j) (day : Calendar.Date) :
    payloadOf p.shipment j.carton j.document day = payloadOf p.shipment (some carton) d day := by
  have hcarton : some (j.carton.getD .empty) = some carton :=
    ((renders p j.document j.carton "").carton day).symm.trans (h.document ▸ h.carton day)
  rw [h.document]
  unfold payloadOf
  rw [Option.some.inj hcarton]
  rfl

theorem filledFor_of_sheet {shipment carton : Value} {suffix : String} {j : Job}
    {day : Calendar.Date} {r : Rendered} (hp : p.shipment = some shipment)
    (hj : Renders p d carton suffix j) (h : sheet setting s p day j = .ok r) :
    FilledFor setting s d shipment carton r := by
  obtain ⟨template, htemplate, hfilled⟩ := except_bind_eq_ok.1 (sheet_eq_ok.1 h).1
  rw [hj.payload, hp, hj.document] at hfilled
  exact ⟨template, day, hj.document ▸ htemplate, hfilled⟩

/-! ## Labels that are rendered -/

theorem forall₂_trans {α β γ : Type} {R : α → β → Prop} {S : β → γ → Prop} {T : α → γ → Prop}
    {as : List α} {bs : List β} {cs : List γ} (h : List.Forall₂ R as bs) (h' : List.Forall₂ S bs cs)
    (hrst : ∀ a b c, R a b → S b c → T a c) : List.Forall₂ T as cs := by
  induction h generalizing cs with
  | nil =>
    cases h'
    exact .nil
  | cons hab _ ih =>
    cases h' with
    | cons hbc hrest => exact .cons (hrst _ _ _ hab hbc) (ih hrest)

/-- What corresponds to a part of a list is a part of its own. -/
theorem exists_infix_of_forall₂ {α β : Type} {R : α → β → Prop} {as bs : List α} {cs : List β}
    (h : List.Forall₂ R bs cs) (hpart : as <:+: bs) : ∃ ds, ds <:+: cs ∧ List.Forall₂ R as ds := by
  obtain ⟨before, after, rfl⟩ := hpart
  have hdrop := List.forall₂_drop_append _ _ _ (List.append_assoc before as after ▸ h).flip
  exact ⟨_, (List.take_prefix _ _).isInfix.trans (List.drop_suffix _ _).isInfix,
    (List.forall₂_take_append _ _ _ hdrop).flip⟩

/-- The spreadsheets of a label stand among those that are rendered. -/
theorem labels_of_rendering {f : File} (hsetting : setting.provider = f.provider)
    {reference : String} (hrequest : request.shipment = some reference) (hs : s.Sound)
    {js : List Job} {rs : List Rendered} (hplanned : planned setting request s = .ok (p, js))
    (hrendering : Rendering setting s p js (.ok rs)) (hd : d ∈ p.documents)
    (htype : d.type = destinationLabel) (hvariant : d.variant = allLabels)
    (hcodes : f.codes reference ≠ []) : ∃ labels, labels <:+: rs ∧
      Labels f reference setting s d labels := by
  obtain ⟨-, jss, hjss, rfl⟩ := prints_of_planned hs hplanned
  obtain ⟨js, hjs, hprints⟩ := (exists_document hjss).1 d hd
  have hpart : js <:+: jss.flatten := by
    obtain ⟨before, after, rfl⟩ := List.append_of_mem hjs
    exact ⟨before.flatten, after.flatten, by simp⟩
  have hlists : Lists setting.provider request d (f.codes reference) :=
    ⟨htype, hvariant, ⟨reference, hrequest, by rw [hsetting]; rfl⟩, hcodes⟩
  obtain ⟨shipment, hknown⟩ := File.exists_shipment hcodes
  have hshipment : p.shipment = some (.ofJson shipment) := by
    rw [found_eq_ok (of_planOf (planned_eq_ok.1 hplanned).1).2.2.1, hrequest, hsetting]
    simp [File.provider, hknown]
  obtain ⟨labels, hlabels, hsheets⟩ := exists_infix_of_forall₂ hrendering.each hpart
  refine ⟨labels, hlabels, ?_⟩
  cases hprints with
  | single hno => exact (hno _ hlists).elim
  | labels hlists' heach =>
    obtain rfl := hlists'.eq hlists
    rw [Labels, ← List.zipIdx_map_fst 0 (f.codes reference), List.forall₂_map_left_iff]
    refine forall₂_trans heach hsheets ?_
    rintro code j r ⟨carton, hcarton, job⟩ ⟨day, hsheet⟩
    obtain ⟨carton, hfound, rfl⟩ := Option.map_eq_some_iff.1 (hsetting ▸ hcarton)
    exact ⟨shipment, carton, hknown, hfound, filledFor_of_sheet hshipment job hsheet⟩

/-- **A label of a shipment is filled from the first record of its code in the file.**  That is the
    record of the shipment itself, unless one before it lists the code too; and the code is never
    the reason why nothing is rendered. -/
theorem labels_filled_from_first_record {text : String} {f : File} (hf : File.ofText? text = some f)
    {reference code : String} {record : Json} (hlists : f.ListsOnce reference code record)
    (hcode : File.lookup? f.cartons code = none) (around : Surroundings) {w : World}
    (hs : w.store.Sound) (hsetting : setting.provider = f.provider)
    (hrequest : request.shipment = some reference) :
    ∃ key first, f.FirstRecord code key first ∧ key ≤ reference ∧
      (key = reference → first = record) ∧ f.carton? code = some first ∧
      code ∈ f.codes reference ∧
      match planned setting request w.store with
      | .error e =>
        ((renderPack setting request).on around w).1 = .error e ∧ e ≠ .unknownCarton code
      | .ok (p, js) => ∃ result, ((renderPack setting request).on around w).1 = result ∧
        Rendering setting w.store p js result ∧ ∀ rs, result = .ok rs →
          ∀ d ∈ p.documents, d.type = destinationLabel → d.variant = allLabels →
            ∃ labels, labels <:+: rs ∧ Labels f reference setting w.store d labels := by
  have hordered := File.ordered_of_ofText? hf
  obtain ⟨first, hfirst⟩ := hlists.exists_carton
  obtain ⟨key, hkey⟩ := File.exists_firstRecord hordered hcode hfirst
  refine ⟨key, first, hkey, hkey.le hlists, ?_, hfirst, hlists.mem_codes, ?_⟩
  · rintro rfl
    exact hkey.eq hordered hlists
  cases hplanned : planned setting request w.store with
  | error e =>
    refine ⟨congrArg Prod.fst (on_renderPack_of_error around hplanned), ?_⟩
    rintro rfl
    cases planError_of_planned hplanned with
    | unknownCarton hunknown =>
      rw [hsetting] at hunknown
      simp [File.provider, hfirst] at hunknown
  | ok planned =>
    obtain ⟨p, js⟩ := planned
    obtain ⟨result, w', hrun, -, hrendering⟩ := on_renderPack around hplanned
    refine ⟨result, congrArg Prod.fst hrun, hrendering, ?_⟩
    rintro rs rfl d hd htype hvariant
    exact labels_of_rendering hsetting hrequest hs hplanned hrendering hd htype hvariant
      (List.ne_nil_of_mem hlists.mem_codes)

end

/-- A carton in a city. -/
def cityCarton (city : String) : Json := .record [("code", .text "C1"), ("city", .text city)]

/-- A shipment that lists one carton. -/
def cityShipment (city : String) : Json := .record [("cartons", .list [cityCarton city])]

/-- A file with two shipments that list a record of one code. -/
def cityFile : File := ⟨[("A", cityShipment "Rome"), ("B", cityShipment "Oslo")], []⟩

/-- The text of the file. -/
def cityText : String :=
  "\x7b\"shipments\":\x7b\"A\":\x7b\"cartons\":[\x7b\"code\":\"C1\",\"city\":\"Rome\"\x7d]\x7d," ++
  "\"B\":\x7b\"cartons\":[\x7b\"code\":\"C1\",\"city\":\"Oslo\"\x7d]\x7d\x7d\x7d"

theorem read_cityFile : File.ofText? cityText = some cityFile := by
  cbv

theorem listsOnce_cityFile : cityFile.ListsOnce "A" "C1" (cityCarton "Rome") ∧
    cityFile.ListsOnce "B" "C1" (cityCarton "Oslo") :=
  ⟨⟨cityShipment "Rome", by cbv⟩, ⟨cityShipment "Oslo", by cbv⟩⟩

/-- An import of a pack with a label that shows the city of a carton. -/
def cityImport : Operation :=
  .importing ⟨fun _ => .ok "\x7b\"sheets\":[\x7b\"name\":\"S\"\x7d]\x7d".toUTF8, "packs",
      sampleSignature⟩
    ⟨[⟨"D", "", true, .a4, none, [⟨destinationLabel, allLabels, 1, true, some "label.json",
      [⟨"S", "A1", "carton.city", "", false, 1⟩]⟩]⟩]⟩

/-- A setting with the payloads of the file. -/
def citySetting : Setting := { sampleSetting with provider := cityFile.provider }

/-- A request for the labels of one of the shipments. -/
def cityRequest (reference : String) : Request :=
  { Request.ofPack "D" with shipment := some reference }

/-- The label with a city. -/
def cityLabel (city : String) : ByteArray :=
  ("\x7b\"sheets\":[\x7b\"name\":\"S\",\"cells\":\x7b\"A1\":\x7b\"type\":\"text\",\"value\":\"" ++
    city ++ "\"\x7d\x7d,\"merged\":[]\x7d]\x7d").toUTF8

/-- The label of the first shipment is filled from its own record. -/
theorem sample_label_filled : cityFile.FirstRecord "C1" "A" (cityCarton "Rome") ∧
    ∃ rs w' d labels, (renderPack citySetting (cityRequest "A")).on sampleSurroundings
      (World.start.runAll [cityImport]) = (.ok rs, w') ∧ rs.map (·.bytes) = [cityLabel "Rome"] ∧
      labels <:+: rs ∧
      Labels cityFile "A" citySetting (World.start.runAll [cityImport]).store d labels := by
  have hrendered : ((renderPack citySetting (cityRequest "A")).on sampleSurroundings
      (World.start.runAll [cityImport])).1.map (·.map (·.bytes)) = .ok [cityLabel "Rome"] := by
    decide +kernel
  have hdocuments : (planned citySetting (cityRequest "A")
      (World.start.runAll [cityImport]).store).map (·.1.documents.map fun d => (d.type, d.variant)) =
        .ok [(destinationLabel, allLabels)] := by
    decide +kernel
  have hs : (World.start.runAll [cityImport]).store.Sound := sound_runAll sound_empty _
  generalize World.start.runAll [cityImport] = w at hrendered hdocuments hs ⊢
  have hsetting : citySetting.provider = cityFile.provider := rfl
  have hrequest : (cityRequest "A").shipment = some "A" := rfl
  obtain ⟨key, first, hfirst, hle, hown, -, -, hlabels⟩ := labels_filled_from_first_record
    read_cityFile listsOnce_cityFile.1 rfl sampleSurroundings hs hsetting hrequest
  have hkey : key = "A" := by
    obtain ⟨shipment, hshipment, -⟩ := hfirst.listed
    simp only [cityFile, List.mem_cons, Prod.mk.injEq, List.not_mem_nil, or_false] at hshipment
    rcases hshipment with ⟨rfl, -⟩ | ⟨rfl, -⟩
    · rfl
    · exact absurd hle (by decide)
  refine ⟨hkey ▸ hown hkey ▸ hfirst, ?_⟩
  rcases hplanned : planned citySetting (cityRequest "A") w.store with e | ⟨p, js⟩
  · rw [hplanned] at hdocuments
    cases hdocuments
  rw [hplanned] at hdocuments hlabels
  rcases hrun : (renderPack citySetting (cityRequest "A")).on sampleSurroundings w with
    ⟨e | rs, w'⟩
  · rw [hrun] at hrendered
    cases hrendered
  rw [hrun] at hrendered hlabels
  obtain ⟨_, rfl, -, hlabels⟩ := hlabels
  have hdocuments : (p.documents.map fun d => (d.type, d.variant)) = _ := Except.ok.inj hdocuments
  obtain ⟨d, hd, hlabel⟩ :
      ∃ d ∈ p.documents, (d.type, d.variant) = (destinationLabel, allLabels) := by
    rw [← List.mem_map, hdocuments]
    exact List.mem_singleton_self _
  obtain ⟨labels, hpart, hfilled⟩ :=
    hlabels rs rfl d hd (congrArg Prod.fst hlabel) (congrArg Prod.snd hlabel)
  exact ⟨rs, w', d, labels, rfl, Except.ok.inj hrendered, hpart, hfilled⟩

/-- The label of the second shipment shows the city of the first one's carton. -/
theorem label_shows_another_shipment : File.ofText? cityText = some cityFile ∧
    cityFile.ListsOnce "B" "C1" (cityCarton "Oslo") ∧
    File.lookup? cityFile.cartons "C1" = none ∧
    ((renderPack citySetting (cityRequest "B")).on sampleSurroundings
      (World.start.runAll [cityImport])).1.map (·.map (·.bytes)) = .ok [cityLabel "Rome"] :=
  ⟨read_cityFile, listsOnce_cityFile.2, rfl, by decide +kernel⟩

end Waybill.Generation
