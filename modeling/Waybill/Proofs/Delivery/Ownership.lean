/-
  The artifact that a generation has in hand.

  A generation adds an artifact, works on it, and hands it over with its last action.  All its other
  steps leave the artifacts alone, and do not look at what is noted of them.

  * `Action.Passes`: an action may come before or after a change to the artifact of a number;
  * `Step.Aside`: the step may come before or after a change to any artifact, and changes none;
  * `Releases`: the action ends the work on the artifact of a number;
  * `Program.Tends`: a program adds one artifact at most, and is done once it has released it.

  Statements: `passes_insertArtifact`, `passes_finalize` and so on (what the actions of a generation
  pass), `tends_generate` (a generation tends its artifact).
-/
import Waybill.Proofs.Delivery.LifeCycle

namespace Waybill

open Waybill.Generation Waybill.Store Waybill.Delivery Waybill.Table

/-! ## Actions beside a change to an artifact -/

/-- The action may come before or after a change to the artifact of a number. -/
def Action.Passes {α : Type} (action : Action StoreError α) (s : Store) (k : Id) : Prop :=
  ∀ f : Artifact → Artifact, (∀ a, (f a).id = a.id) →
    action (s.changeArtifact k f) = (action s).map fun r => (r.1, r.2.changeArtifact k f)

theorem Action.Passes.run {α : Type} {action : Action StoreError α} {s : Store} {k : Id}
    (h : action.Passes s k) {f : Artifact → Artifact} (hf : ∀ a, (f a).id = a.id) :
    (s.changeArtifact k f).run action =
      ((s.run action).1, (s.run action).2.changeArtifact k f) := by
  unfold Store.run
  rw [h f hf]
  cases action s <;> rfl

/-- A row that a change is not about may be added before or after it. -/
theorem Table.push_change {α : Type} (t : Table α) (which : α → Bool) (f : α → α) (row : Id → α)
    (h : ¬ which (row t.next)) : (t.change which f).push row = (t.push row).change which f := by
  unfold push change
  rw [List.map_append, List.map_singleton, if_neg h]
  rfl

namespace Store

variable {s : Store} {id k : Id} {f g : Artifact → Artifact}

/-- The row of the artifact of a number. -/
def artifactRow? (s : Store) (id : Id) : Option ArtifactRow :=
  s.artifacts.rows.find? fun row => row.artifact.id == id

theorem artifactRow?_of_has (hs : s.Sound) {a : Artifact} (ha : s.Has a) :
    s.artifactRow? a.id = some ⟨a, none⟩ :=
  hs.artifacts.find?_eq (a := ⟨a, none⟩) ha

theorem artifactRow?_changeArtifact (hne : k ≠ id) (hf : ∀ a, (f a).id = a.id) :
    (s.changeArtifact k f).artifactRow? id = s.artifactRow? id := by
  refine (find?_change fun row _ => by simp [hf]).trans ?_
  change (s.artifactRow? id).map _ = s.artifactRow? id
  cases h : s.artifactRow? id with
  | none => rfl
  | some row =>
    have hid : row.artifact.id = id := by simpa using List.find?_some h
    rw [Option.map_some, if_neg (by simpa [hid] using hne.symm)]

theorem artifact_changeArtifact (hne : k ≠ id) (hf : ∀ a, (f a).id = a.id) :
    (s.changeArtifact k f).artifact id = s.artifact id := by
  have hrow := artifactRow?_changeArtifact (s := s) hne hf
  unfold artifactRow? at hrow
  unfold artifact artifact?
  rw [hrow]

/-- Changes to two artifacts may be made in either order. -/
theorem changeArtifact_comm (hne : k ≠ id) (hf : ∀ a, (f a).id = a.id)
    (hg : ∀ a, (g a).id = a.id) :
    (s.changeArtifact k f).changeArtifact id g = (s.changeArtifact id g).changeArtifact k f := by
  unfold changeArtifact change
  simp only [List.map_map, Store.mk.injEq, Table.mk.injEq, and_true, true_and]
  refine List.map_congr_left fun row _ => ?_
  by_cases hk : row.artifact.id = k
  · have hid : row.artifact.id ≠ id := hk ▸ hne
    simp [hk, hne, hf]
  · by_cases hid : row.artifact.id = id <;> simp [hk, hid, hg, hne.symm]

theorem passes_readPack (s : Store) (k : Id) (code : String) (variant : Option String) :
    (Generation.readPack code variant).Passes s k := by
  intro f _
  unfold Generation.readPack
  rw [Action.get_bind, Action.get_bind, Action.lift_bind, Action.lift_bind]
  have hpack : (s.changeArtifact k f).activePack? code = s.activePack? code := rfl
  rw [hpack]
  rcases s.activePack? code with e | - | pack <;> rfl

theorem passes_readRules (s : Store) (k id : Id) :
    (do return (← get).rulesOf id : Action StoreError _).Passes s k := fun _ _ => rfl

theorem passes_insertArtifact (hs : s.Sound) (hk : k ≠ s.artifacts.next) (new : NewArtifact) :
    (insertArtifact new).Passes s k := by
  intro f hf
  rw [(insertArtifact_eq_ok hs).2 ⟨rfl, rfl⟩,
    (insertArtifact_eq_ok (hs.changeArtifact k hf)).2 ⟨rfl, rfl⟩]
  refine congrArg Except.ok (Prod.ext rfl ?_)
  have hpush := push_change s.artifacts (fun row => row.artifact.id == k)
    (fun row => ⟨f row.artifact, none⟩) (fun id => ⟨new.artifact id, none⟩)
    fun h => hk (beq_iff_eq.1 h).symm
  exact congrArg (fun t => { s with artifacts := t }) hpush

theorem passes_insertItem (s : Store) (k : Id) (item : ArtifactItem) :
    (insertItem item).Passes s k := by
  intro f hf
  have hany : (s.changeArtifact k f).artifacts.rows.any
      (fun row => row.artifact.id == item.artifact) =
        s.artifacts.rows.any fun row => row.artifact.id == item.artifact := by
    unfold changeArtifact change
    rw [List.any_map]
    refine congrArg s.artifacts.rows.any (funext fun row => ?_)
    rw [Function.comp_apply]
    split <;> simp [hf]
  unfold insertItem
  rw [Action.get_bind, Action.get_bind]
  dsimp only
  rw [hany]
  split <;> rfl

theorem passes_finalize (s : Store) (hk : k ≠ id) (pdfName : String) (pdf : ByteArray)
    (checksum : String) : (finalize id pdfName pdf checksum).Passes s k := by
  intro f hf
  let g : Artifact → Artifact := fun a =>
    { a with pdfName := some pdfName, pdf := some pdf, checksum, status := .syncPending }
  have heq : ∀ s : Store, finalize id pdfName pdf checksum s =
      ((s.changeArtifact id g).artifact id).map fun a => (a, s.changeArtifact id g) := by
    intro s
    change (liftM ((s.changeArtifact id g).artifact id) : Action StoreError _)
      (s.changeArtifact id g) = _
    cases (s.changeArtifact id g).artifact id <;> rfl
  have hcomm := changeArtifact_comm (s := s) (g := g) hk hf fun _ => rfl
  rw [heq, heq, hcomm, artifact_changeArtifact hk hf]
  cases (s.changeArtifact id g).artifact id <;> rfl

theorem passes_markFailed (s : Store) (hk : k ≠ id) (error : String) :
    (markFailed id error).Passes s k := by
  intro f hf
  have hcomm := changeArtifact_comm (s := s) (g := failed error) hk hf fun _ => rfl
  exact congrArg (fun s => Except.ok ((), s)) hcomm

end Store

/-! ## Steps that leave the artifacts alone -/

/-- The step may come before or after a change to any artifact, and changes none. -/
def Generation.Step.Aside : (β : Type) → Step β → Prop
  | _, .store action => (∀ s k, action.Passes s k) ∧ action.Keeps SparesArtifacts
  | _, _ => True

theorem harmless_aside : Harmless Step.Aside where
  readPack code variant :=
    ⟨fun s k => passes_readPack s k code variant, readPack_keeps code variant⟩
  readRules id :=
    ⟨fun s k => passes_readRules s k id, (harmless_within SparesArtifacts).readRules id⟩
  convert _ _ _ := trivial
  merge _ := trivial
  now := trivial
  today := trivial

theorem aside_insertItem (item : ArtifactItem) : Step.Aside _ (.store (insertItem item)) := by
  refine ⟨fun s k => passes_insertItem s k item, fun s i s' h hs => ⟨hs.insertItem h, ?_⟩⟩
  rw [(insertItem_eq_ok.1 h).2.2]

/-! ## The end of the work on an artifact -/

/-- The action ends the work on the artifact of a number: it leaves all other artifacts alone, and
    the artifact is no longer being generated. -/
structure Releases {α : Type} (id : Id) (action : Action StoreError α) : Prop where
  passes : ∀ s k, k ≠ id → action.Passes s k
  leaves : ∀ s, s.Sound → (∃ a, s.Has a ∧ a.id = id) → ∃ b f, (∀ a, (f a).id = a.id) ∧
    (∀ a, (f a).Left) ∧ action s = .ok (b, s.changeArtifact id f)

theorem releases_finalize (id : Id) (pdfName : String) (pdf : ByteArray) (checksum : String) :
    Releases id (finalize id pdfName pdf checksum) where
  passes s _ hk := passes_finalize s hk pdfName pdf checksum
  leaves := by
    rintro s hs ⟨a, ha, rfl⟩
    let f : Artifact → Artifact := fun a =>
      { a with pdfName := some pdfName, pdf := some pdf, checksum, status := .syncPending }
    have hrow : (s.changeArtifact a.id f).Has (f a) :=
      mem_change.2 ⟨_, ha, if_pos (by simp)⟩
    refine ⟨f a, f, fun _ => rfl, fun _ => by simp [f, Artifact.Left], finalize_eq_ok.2 ⟨rfl, ?_⟩⟩
    exact artifact_eq (hs.changeArtifact a.id (f := f) fun _ => rfl).artifacts hrow

theorem releases_markFailed (id : Id) (error : String) : Releases id (markFailed id error) where
  passes s _ hk := passes_markFailed s hk error
  leaves _ _ _ := ⟨(), failed error, fun _ => rfl, fun _ => by simp [failed, Artifact.Left], rfl⟩

/-! ## Programs that tend an artifact -/

/-- The program adds one artifact at most, and is done once it has released it: nothing is in its
    hands yet, or the artifact of a number is. -/
inductive Program.Tends {α : Type} : Option Id → Program Step α → Prop
  | done (a : α) : Tends none (.done a)
  | aside {own : Option Id} {β : Type} {c : Step β} {next : β → Program Step α}
    (hc : Step.Aside _ c) (hnext : ∀ answer, Tends own (next answer)) : Tends own (.call c next)
  | insert {new : NewArtifact} {next : Except StoreError Artifact → Program Step α}
    (hnext : ∀ a, Tends (some a.id) (next (.ok a))) :
    Tends none (.call (.store (insertArtifact new)) next)
  | release {id : Id} {β : Type} {action : Action StoreError β}
    {next : Except StoreError β → Program Step α} (haction : Releases id action)
    (hnext : ∀ b, ∃ r, next (.ok b) = .done r) : Tends (some id) (.call (.store action) next)

namespace Program

instance {Call : Type → Type 1} : LawfulMonad (Program Call) :=
  .mk' _
    (fun p => by
      induction p with
      | done a => rfl
      | call c next ih => exact congrArg (Program.call c) (funext ih))
    (fun _ _ => rfl)
    (fun p f g => by
      induction p with
      | done a => rfl
      | call c next ih => exact congrArg (Program.call c) (funext ih))

/-- Steps aside may come before. -/
theorem Tends.bind {α β : Type} {own : Option Id} {p : Program Step α}
    {f : α → Program Step β} (hp : p.Each Step.Aside) (hf : ∀ a, (f a).Tends own) :
    (p >>= f).Tends own := by
  induction p with
  | done a => exact hf a
  | call c next ih => exact .aside hp.1 fun answer => ih answer (hp.2 answer)

end Program

namespace Generation

/-- Work that may be stopped by an error tends its artifact when its end and the handler do, and all
    before is aside. -/
theorem tends_caught {ε α β : Type} {own : Option Id} {work : Work ε α} {f : α → Work ε β}
    {handler : ε → Work ε β} (hwork : work.Each Step.Aside)
    (hhandler : ∀ e, (handler e).run.Tends own)
    (hf : ∀ a, (tryCatch (f a) handler : Work ε β).run.Tends own) :
    (tryCatch (work >>= f) handler : Work ε β).run.Tends own := by
  have hassoc : (tryCatch (work >>= f) handler : Work ε β).run = work.run >>= fun answer =>
      ExceptT.bindCont f answer >>= Work.handled handler :=
    bind_assoc work.run (ExceptT.bindCont f) (Work.handled handler)
  rw [hassoc]
  refine .bind hwork fun answer => ?_
  rcases answer with e | a
  · exact hhandler e
  · exact hf a

/-- The work for an artifact ends with its release, whether it succeeds or not. -/
theorem tends_renderArtifact (setting : Setting) (p : Plan) (js : List Job) (artifact : Id) :
    (tryCatch (renderArtifact setting p js artifact) (giveUp artifact) :
      Work PackError Artifact).run.Tends (some artifact) := by
  have hgive : ∀ e, (giveUp artifact e).run.Tends (some artifact) := fun e =>
    .release (releases_markFailed artifact e.message) fun _ => ⟨_, rfl⟩
  refine tends_caught (convertJobs_each harmless_aside aside_insertItem setting p artifact js) hgive
    fun pdfs => ?_
  refine tends_caught (mergeAll_each harmless_aside.merge p.pack.code pdfs) hgive fun pdf => ?_
  refine tends_caught (.ask harmless_aside.now) hgive fun now => ?_
  exact .release (releases_finalize artifact _ pdf _) fun _ => ⟨_, rfl⟩

/-- **A generation tends its artifact.** -/
theorem tends_generate (setting : Setting) (request : Request) :
    (generate setting request).run.Tends none := by
  have hdone : ∀ e : PackError, (.done (.error e) : Program Step (Except PackError Artifact)).Tends
      none := fun _ => .done _
  rw [generate_eq]
  refine .bind (plan_each harmless_aside setting request) fun planned => ?_
  rcases planned with e | p
  · exact hdone e
  refine .bind (Work.Each.lift (jobs setting.provider p request.shipment)) fun listed => ?_
  rcases listed with e | js
  · exact hdone e
  exact .aside harmless_aside.now fun now => .insert fun artifact =>
    tends_renderArtifact setting p js artifact.id

end Generation

end Waybill
