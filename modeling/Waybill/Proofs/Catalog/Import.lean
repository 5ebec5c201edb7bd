/-
  What an import does and what it keeps.

  An import is a sequence of actions, and stops at the first that fails; the ones before stay done.

  * `Run.Keeps`: the store a run leaves, whether it fails or not, is related to the one before;
  * `DocumentEntry.wanted` and `PackEntry.wanted` are what is to be kept of a catalog's entries.

  Statements: `importCatalog_keeps` (an import is within every relation that its actions are
  within), `advances_importCatalog` (it keeps the histories, however it ends),
  `importDocument_eq_ok` and `importPack_eq_ok` (the actions of an import that succeeds).
-/
import Waybill.Catalog.Import
import Waybill.Proofs.History.Records

namespace Waybill

open Waybill.History Waybill.Store Waybill.Catalog Waybill.Table

/-! ## Quiet actions -/

namespace Store

theorem quiet_upsertPack (p : NewPack) : (upsertPack p).Keeps Quiet := by
  intro s r s' h
  have hs' := (upsertPack_ok h).1
  refine ⟨fun hs => hs.upsertPack h, by rw [hs'], by rw [hs'], fun row hrow => ?_⟩
  exact ⟨row, by rw [hs']; exact hrow, rfl, rfl⟩

theorem exists_row_change {s : Store} {which : DocumentRow → Bool} {f : DocumentRow → DocumentRow}
    (hid : ∀ row, (f row).id = row.id) (ht : ∀ row, (f row).template = row.template)
    {row : DocumentRow} (hrow : row ∈ s.documents.rows) :
    ∃ row' ∈ (s.documents.change which f).rows,
      row'.id = row.id ∧ row'.template = row.template :=
  ⟨_, mem_change.2 ⟨row, hrow, rfl⟩, view_change (fun row _ => hid row) row,
    view_change (fun row _ => ht row) row⟩

theorem quiet_upsertDocument (d : NewDocument) : (upsertDocument d).Keeps Quiet := by
  intro s r s' h
  have hsound : s.Sound → s'.Sound := fun hs => hs.upsertDocument h
  obtain ⟨-, ⟨row, -, -, -, rfl⟩ | ⟨-, -, -, rfl⟩⟩ := upsertDocument_ok h
  · refine ⟨hsound, rfl, rfl, fun row hrow => ?_⟩
    exact exists_row_change (f := d.onto) (fun _ => rfl) (fun _ => rfl) hrow
  · refine ⟨hsound, rfl, rfl, fun row hrow => ?_⟩
    exact ⟨row, mem_push.2 (Or.inl hrow), rfl, rfl⟩

theorem quiet_setEnabled (id : Id) (enabled : Bool) : (setEnabled id enabled).Keeps Quiet := by
  intro s r s' h
  have hsound : s.Sound → s'.Sound := fun hs => hs.changeDocument h (fun _ => rfl) fun _ => rfl
  obtain ⟨-, rfl⟩ := changeDocument_eq_ok.1 h
  refine ⟨hsound, rfl, rfl, fun row hrow => ?_⟩
  exact exists_row_change (f := fun row => { row with enabled }) (fun _ => rfl) (fun _ => rfl) hrow

end Store

namespace Catalog

/-! ## Runs -/

namespace Run

variable {ε α β : Type}

theorem bind_eq (x : Run α) (f : α → Run β) (s : Store) :
    (x >>= f) s = match x s with
      | (.ok a, s') => f a s'
      | (.error e, s') => (.error e, s') := by
  change (match x s with | (result, s') => ExceptT.bindCont f result s') = _
  rcases x s with ⟨_ | a, s'⟩ <;> rfl

section
variable {s s' : Store} {a b : α} {c : β}

theorem pure_eq_ok : (Pure.pure a : Run α) s = (.ok b, s') ↔ b = a ∧ s' = s := by
  change (Except.ok a, s) = (Except.ok b, s') ↔ _
  rw [Prod.mk.injEq, Except.ok.injEq, eq_comm (a := a), eq_comm (a := s)]

theorem bind_eq_ok {x : Run α} {f : α → Run β} :
    (x >>= f) s = (.ok c, s') ↔ ∃ a s₁, x s = (.ok a, s₁) ∧ f a s₁ = (.ok c, s') := by
  rw [bind_eq]
  rcases x s with ⟨e | a, s₁⟩
  · exact ⟨nofun, nofun⟩
  · exact ⟨fun h => ⟨a, s₁, rfl, h⟩, fun ⟨_, _, heq, h⟩ => by cases heq; exact h⟩

theorem get_bind_eq_ok {f : Store → Run α} :
    ((get : Run Store) >>= f) s = (.ok a, s') ↔ f s s = (.ok a, s') := Iff.rfl

theorem lift_bind_eq_ok {x : Except CatalogError α} {f : α → Run β} :
    ((liftM x : Run α) >>= f) s = (.ok c, s') ↔ ∃ a, x = .ok a ∧ f a s = (.ok c, s') := by
  rcases x with e | a
  · exact ⟨nofun, nofun⟩
  · exact ⟨fun h => ⟨a, rfl, h⟩, fun ⟨_, heq, h⟩ => by cases heq; exact h⟩

theorem step_eq_ok {cause : ε → CatalogError} {action : Action ε α} :
    Run.step cause action s = (.ok a, s') ↔ action s = .ok (a, s') := by
  unfold Run.step
  rcases Action.run_cases s action with ⟨b, s₁, h, hrun⟩ | ⟨e, h, hrun⟩
  · rw [hrun, h]
    exact ⟨fun h => by cases h; rfl, fun h => by cases h; rfl⟩
  · rw [hrun, h]
    exact ⟨nofun, nofun⟩

theorem bind_eq_error {x : Run α} {f : α → Run β} {e : CatalogError} :
    (x >>= f) s = (.error e, s') ↔
      x s = (.error e, s') ∨ ∃ a s₁, x s = (.ok a, s₁) ∧ f a s₁ = (.error e, s') := by
  rw [bind_eq]
  rcases x s with ⟨cause | a, s₁⟩
  · have heq : (Except.error (α := β) cause, s₁) = (.error e, s') ↔
        (Except.error (α := α) cause, s₁) = (.error e, s') := by simp
    exact heq.trans ⟨Or.inl, fun h => h.resolve_right nofun⟩
  · exact ⟨fun h => Or.inr ⟨a, s₁, rfl, h⟩, fun h => by
      obtain ⟨_, _, heq, h⟩ := h.resolve_left nofun
      cases heq
      exact h⟩

theorem lift_bind_eq_error {x : Except CatalogError α} {f : α → Run β} {e : CatalogError} :
    ((liftM x : Run α) >>= f) s = (.error e, s') ↔
      (x = .error e ∧ s' = s) ∨ ∃ a, x = .ok a ∧ f a s = (.error e, s') := by
  rcases x with cause | a
  · have heq : (Except.error (α := β) cause, s) = (.error e, s') ↔
        Except.error (α := α) cause = .error e ∧ s' = s := by simp [eq_comm]
    exact heq.trans ⟨Or.inl, fun h => h.resolve_right nofun⟩
  · exact ⟨fun h => Or.inr ⟨a, rfl, h⟩, fun h => by
      obtain ⟨_, heq, h⟩ := h.resolve_left nofun
      cases heq
      exact h⟩

theorem step_eq_error {cause : ε → CatalogError} {action : Action ε α} {e : CatalogError} :
    Run.step cause action s = (.error e, s') ↔
      ∃ detail, action s = .error detail ∧ e = cause detail ∧ s' = s := by
  unfold Run.step
  rcases Action.run_cases s action with ⟨b, s₁, h, hrun⟩ | ⟨detail, h, hrun⟩
  · rw [hrun, h]
    exact ⟨nofun, nofun⟩
  · rw [hrun, h]
    constructor
    · intro h
      cases h
      exact ⟨detail, rfl, rfl, rfl⟩
    · rintro ⟨_, ⟨⟩, rfl, rfl⟩
      rfl

end

/-- The store a run leaves is related to the one before, however the run ends. -/
def Keeps (R : Store → Store → Prop) (x : Run α) : Prop :=
  ∀ s, R s (x s).2

variable {R : Store → Store → Prop} [IsPreorder Store R]

theorem Keeps.pure (a : α) : Keeps R (Pure.pure a : Run α) := fun s => refl_of R s

theorem Keeps.throw_bind (e : CatalogError) (f : α → Run β) :
    Keeps R ((throw e : Run α) >>= f) := fun s => refl_of R s

theorem Keeps.get : Keeps R (MonadState.get : Run Store) := fun s => refl_of R s

theorem Keeps.lift (x : Except CatalogError α) : Keeps R (liftM x : Run α) := by
  intro s
  cases x <;> exact refl_of R s

theorem Keeps.bind {x : Run α} {f : α → Run β} (hx : Keeps R x) (hf : ∀ a, Keeps R (f a)) :
    Keeps R (x >>= f) := by
  intro s
  have hxs := hx s
  rw [bind_eq]
  generalize x s = result at hxs
  obtain ⟨e | a, s'⟩ := result
  · exact hxs
  · exact trans_of R hxs (hf a s')

theorem Keeps.step {cause : ε → CatalogError} {action : Action ε α} (h : action.Keeps R) :
    Keeps R (Run.step cause action) := h.run

/-- A run of advances leaves a store whose histories are in order. -/
theorem Keeps.recorded {x : Run α} (hx : Keeps Advances x) {s s' : Store} (hs : s.Recorded)
    {r : Except CatalogError α} (h : x s = (r, s')) : s'.Recorded := by
  have hadvances := hx s hs
  rw [h] at hadvances
  exact hadvances.1

end Run

/-! ## Imports -/

section
variable {R : Store → Store → Prop} [IsPreorder Store R] (hpack : ∀ p, (upsertPack p).Keeps R)
  (hdocument : ∀ d, (upsertDocument d).Keeps R)
  (henabled : ∀ id enabled, (setEnabled id enabled).Keeps R)
  (hedit : ∀ id edit signature note, (saveEdit id edit signature note).Keeps R)

include henabled in
theorem disableAll_keeps (ids : List Id) : (disableAll ids).Keeps R := by
  induction ids with
  | nil => exact Action.Keeps.pure ()
  | cons id ids ih => exact (henabled id false).bind fun _ => ih

include henabled in
theorem disableUnlisted_keeps (pack : Id) (listed : List Id) :
    (disableUnlisted pack listed).Keeps R :=
  Action.Keeps.get.bind fun _ => (disableAll_keeps henabled _).bind fun _ => .pure _

include hdocument hedit

theorem importDocument_keeps (setting : Setting) (pack : Id) (d : DocumentEntry) :
    (importDocument setting pack d).Keeps R := by
  refine (Run.Keeps.lift _).bind fun template => ?_
  refine (Run.Keeps.step (hdocument _)).bind fun live => ?_
  refine Run.Keeps.get.bind fun s => ?_
  split
  · exact (Run.Keeps.step (hedit _ _ _ _)).bind fun _ => .pure _
  · exact .pure _

theorem importDocuments_keeps (setting : Setting) (pack : Id) (ds : List DocumentEntry)
    (report : ImportReport) : (importDocuments setting pack ds report).Keeps R := by
  induction ds generalizing report with
  | nil => exact .pure _
  | cons d ds ih =>
    exact (importDocument_keeps hdocument hedit setting pack d).bind fun _ =>
      (ih _).bind fun _ => .pure _

include hpack henabled

theorem importPack_keeps (setting : Setting) (p : PackEntry) (report : ImportReport) :
    (importPack setting p report).Keeps R := by
  unfold importPack
  dsimp only
  split
  · exact .throw_bind _ _
  · refine (Run.Keeps.step (hpack _)).bind fun pack => ?_
    refine (importDocuments_keeps hdocument hedit setting pack.id p.documents _).bind
      fun listed => ?_
    exact (Run.Keeps.step (disableUnlisted_keeps henabled _ _)).bind fun _ => .pure _

theorem importPacks_keeps (setting : Setting) (ps : List PackEntry) (report : ImportReport) :
    (importPacks setting ps report).Keeps R := by
  induction ps generalizing report with
  | nil => exact .pure _
  | cons p ps ih =>
    exact (importPack_keeps hpack hdocument henabled hedit setting p report).bind fun _ => ih _

/-- An import is within every relation that its four actions are within. -/
theorem importCatalog_keeps (setting : Setting) (catalog : Catalog) :
    (importCatalog setting catalog).Keeps R :=
  importPacks_keeps hpack hdocument henabled hedit setting catalog.packs .empty

end

section
variable (setting : Setting)

theorem advances_upsertPack (p : NewPack) : (upsertPack p).Keeps Advances :=
  (quiet_upsertPack p).mono fun _ _ => Quiet.advances

theorem advances_upsertDocument (d : NewDocument) : (upsertDocument d).Keeps Advances :=
  (quiet_upsertDocument d).mono fun _ _ => Quiet.advances

theorem advances_setEnabled (id : Id) (enabled : Bool) : (setEnabled id enabled).Keeps Advances :=
  (quiet_setEnabled id enabled).mono fun _ _ => Quiet.advances

theorem advances_saveEdit (id : Id) (edit : Edit) (signature : Signature) (note : String) :
    (saveEdit id edit signature note).Keeps Advances :=
  fun _ _ _ h hs => ((saveEdit_eq_ok hs.sound).1 h).advances hs

theorem advances_importPack (p : PackEntry) (report : ImportReport) :
    (importPack setting p report).Keeps Advances :=
  importPack_keeps advances_upsertPack advances_upsertDocument advances_setEnabled
    advances_saveEdit setting p report

/-- **An import keeps the histories**, however it ends. -/
theorem advances_importCatalog (catalog : Catalog) :
    (importCatalog setting catalog).Keeps Advances :=
  importCatalog_keeps advances_upsertPack advances_upsertDocument advances_setEnabled
    advances_saveEdit setting catalog

end

/-! ## Imports that succeed -/

/-- What is to be kept of a document, in the pack of a number. -/
def DocumentEntry.wanted (d : DocumentEntry) (pack : Id) : NewDocument where
  pack := pack
  type := Text.trim d.type
  variant := Text.trim d.variant
  sequence := d.sequence
  enabled := d.enabled

/-- What is to be kept of a pack; its name is its code when it has none. -/
def PackEntry.wanted (p : PackEntry) : NewPack where
  code := Text.trim p.code
  name := if (Text.trim p.name).isEmpty then Text.trim p.code else Text.trim p.name
  active := p.active
  defaultFormat := p.defaultFormat
  fallbackFormat := p.fallbackFormat

/-- The template file that a catalog's entry names, if it names one. -/
def Setting.template (setting : Setting) (d : DocumentEntry) :
    Except CatalogError (Option TemplateFile) :=
  d.template.mapM (readTemplate setting.read setting.directory)

section
variable {setting : Setting} {s s' : Store} {report report' : ImportReport}

theorem importDocument_eq_ok {pack : Id} {d : DocumentEntry} {r : Id × Bool} :
    importDocument setting pack d s = (.ok r, s') ↔ ∃ template live s₁,
      setting.template d = .ok template ∧ upsertDocument (d.wanted pack) s = .ok (live, s₁) ∧
        r = (live.id, differs s₁ live template d.rules) ∧
        if differs s₁ live template d.rules then
          ∃ v, saveEdit live.id ⟨template.map some, some d.rules⟩ setting.signature importNote s₁ =
            .ok (v, s')
        else s' = s₁ := by
  unfold importDocument
  rw [Run.lift_bind_eq_ok]
  refine exists_congr fun template => ?_
  rw [Run.bind_eq_ok]
  simp only [Run.step_eq_ok, Run.get_bind_eq_ok]
  constructor
  · rintro ⟨htemplate, live, s₁, hlive, h⟩
    refine ⟨live, s₁, htemplate, hlive, ?_⟩
    split at h
    · next hd =>
      obtain ⟨v, s₂, hedit, h⟩ := Run.bind_eq_ok.1 h
      obtain ⟨rfl, rfl⟩ := Run.pure_eq_ok.1 h
      rw [hd]
      exact ⟨rfl, v, Run.step_eq_ok.1 hedit⟩
    · next hd =>
      obtain ⟨rfl, rfl⟩ := Run.pure_eq_ok.1 h
      rw [Bool.not_eq_true] at hd
      rw [hd]
      exact ⟨rfl, rfl⟩
  · rintro ⟨live, s₁, htemplate, hlive, rfl, h⟩
    refine ⟨htemplate, live, s₁, hlive, ?_⟩
    cases hd : differs s₁ live template d.rules with
    | true =>
      rw [hd] at h
      obtain ⟨v, hedit⟩ := h
      exact Run.bind_eq_ok.2 ⟨v, s', Run.step_eq_ok.2 hedit, rfl⟩
    | false =>
      rw [hd] at h
      obtain rfl := h
      rfl

theorem importPack_eq_ok {p : PackEntry} :
    importPack setting p report s = (.ok report', s') ↔
      (Text.trim p.code).isEmpty = false ∧ ∃ pack s₁ listed between s₂ disabled,
        upsertPack p.wanted s = .ok (pack, s₁) ∧
        importDocuments setting pack.id p.documents { report with packs := report.packs + 1 } s₁ =
          (.ok (listed, between), s₂) ∧
        disableUnlisted pack.id listed s₂ = .ok (disabled, s') ∧
        report' = { between with disabled := between.disabled + disabled } := by
  unfold importPack
  dsimp only
  split
  · next hempty =>
    rw [hempty]
    exact ⟨nofun, nofun⟩
  · next hempty =>
    simp only [Run.bind_eq_ok, Run.step_eq_ok, Run.pure_eq_ok]
    constructor
    · rintro ⟨pack, s₁, hpack, ⟨listed, between⟩, s₂, hdocuments, disabled, s₃, hdisabled, h⟩
      obtain ⟨rfl, rfl⟩ := h
      exact ⟨by simpa using hempty, pack, s₁, listed, between, s₂, disabled, hpack, hdocuments,
        hdisabled, rfl⟩
    · rintro ⟨-, pack, s₁, listed, between, s₂, disabled, hpack, hdocuments, hdisabled, rfl⟩
      exact ⟨pack, s₁, hpack, (listed, between), s₂, hdocuments, disabled, s', hdisabled, rfl, rfl⟩

theorem importDocuments_cons_eq_ok {pack : Id} {d : DocumentEntry} {ds : List DocumentEntry}
    {ids : List Id} :
    importDocuments setting pack (d :: ds) report s = (.ok (ids, report'), s') ↔
      ∃ id recorded s₁ ids', importDocument setting pack d s = (.ok (id, recorded), s₁) ∧
        importDocuments setting pack ds { report with
          documents := report.documents + 1
          versions := report.versions + (if recorded then 1 else 0)
          unchanged := report.unchanged + (if recorded then 0 else 1) } s₁ =
            (.ok (ids', report'), s') ∧ ids = id :: ids' := by
  rw [importDocuments, Run.bind_eq_ok]
  simp only [Run.bind_eq_ok, Run.pure_eq_ok]
  constructor
  · rintro ⟨⟨id, recorded⟩, s₁, hd, ⟨ids', between⟩, s₂, hds, h⟩
    obtain ⟨h, rfl⟩ := h
    obtain ⟨rfl, rfl⟩ := Prod.mk.injEq .. ▸ h
    exact ⟨id, recorded, s₁, ids', hd, hds, rfl⟩
  · rintro ⟨id, recorded, s₁, ids', hd, hds, rfl⟩
    exact ⟨(id, recorded), s₁, hd, (ids', report'), s', hds, rfl, rfl⟩

theorem importPacks_cons_eq_ok {p : PackEntry} {ps : List PackEntry} :
    importPacks setting (p :: ps) report s = (.ok report', s') ↔
      ∃ between s₁, importPack setting p report s = (.ok between, s₁) ∧
        importPacks setting ps between s₁ = (.ok report', s') := Run.bind_eq_ok

end

end Catalog

end Waybill
