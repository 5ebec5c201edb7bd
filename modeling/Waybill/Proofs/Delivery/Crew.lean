/-
  One run of the queue beside generations.

  A run of the queue and any number of generations work on one store.  They take turns: in a turn a
  task makes one call, so that an action on the store is done as a whole, and what one task asks of
  the surroundings is nothing to the others.

  * `Task` is a run on its way, `Task.turn` its next call;
  * `Crew` is a store with the tasks on it, `Crew.turns` takes turns in any order;
  * `Tended` is what the turn of a generation does to the artifacts;
  * `Delivering` says which attempts of the run of the queue are not noted yet;
  * `Orderly`: every generation tends its own artifact; `Beside` compares a crew with one where the
    run of the queue was done at once.

  Statements: `Orderly.turn` (generations tend their own artifacts, whatever the order),
  `Beside.generator` and `Beside.worker` (one turn), `Beside.turns` (any turns), and
  `worker_beside_generators`.
-/
import Waybill.Proofs.Delivery.Ownership

namespace Waybill

open Waybill.Drive Waybill.Generation Waybill.Store Waybill.Table

/-! ## Tasks -/

/-- A run on its way: what is left of it, what happened in it so far, and how many actions on the
    store it has done. -/
structure Task (ε α : Type) where
  around : Surroundings
  rest : Program Step (Except ε α)
  past : List Event
  actions : Nat

/-- How many actions on the store a step is. -/
def Generation.Step.actions {β : Type} : Step β → Nat
  | .store _ => 1
  | _ => 0

namespace Task

variable {ε α : Type}

/-- Work that nothing was done of. -/
def start (work : Work ε α) (around : Surroundings) : Task ε α := ⟨around, work.run, [], 0⟩

/-- The task after its next call, with the store after it; one that is done makes none. -/
def turn (t : Task ε α) (s : Store) : Task ε α × Store :=
  match t.rest with
  | .done _ => (t, s)
  | .call c next =>
    let answered := t.around.answer _ c ⟨s, t.past⟩
    ({ t with
        rest := next answered.1, past := answered.2.past, actions := t.actions + c.actions },
      answered.2.store)

variable {t : Task ε α} {s : Store}

theorem turn_done {r : Except ε α} (h : t.rest = .done r) : t.turn s = (t, s) := by
  unfold turn
  rw [h]

theorem turn_call {β : Type} {c : Step β} {next : β → Program Step (Except ε α)}
    (h : t.rest = .call c next) :
    t.turn s = ({ t with
      rest := next (t.around.answer _ c ⟨s, t.past⟩).1
      past := (t.around.answer _ c ⟨s, t.past⟩).2.past
      actions := t.actions + c.actions }, (t.around.answer _ c ⟨s, t.past⟩).2.store) := by
  unfold turn
  rw [h]

end Task

/-! ## The turn of a generation -/

/-- What a turn of a generation does to the artifacts, with the artifact in its hands before and
    after: nothing, or it adds one, or it releases its own. -/
inductive Tended (s s' : Store) : Option Id → Option Id → Prop
  | aside (own : Option Id) (h : s'.artifacts = s.artifacts) : Tended s s' own own
  | added (new : NewArtifact)
    (h : s'.artifacts = s.artifacts.push fun id => ⟨new.artifact id, none⟩) :
    Tended s s' none (some s.artifacts.next)
  | released (id : Id) {f : Artifact → Artifact} (hid : ∀ a, (f a).id = a.id)
    (hleft : ∀ a, (f a).Left) (h : s' = s.changeArtifact id f) : Tended s s' (some id) none

/-- What is in the hands of a generation is being generated. -/
def Store.Generating (s : Store) (own : Option Id) : Prop :=
  ∀ id, own = some id → ∃ a, s.Has a ∧ a.id = id ∧ ¬a.Left

namespace Tended

variable {s s' : Store} {own own' : Option Id}

/-- The artifacts of others are as before. -/
theorem has (h : Tended s s' own own') {a : Artifact} (ha : s.Has a) (hown : own ≠ some a.id) :
    s'.Has a := by
  unfold Has at ha ⊢
  cases h with
  | aside own h => rwa [h]
  | added new h =>
    rw [h]
    exact mem_push.2 (Or.inl ha)
  | released id hid hleft h =>
    rw [h]
    exact mem_change.2 ⟨_, ha, if_neg fun e => hown (congrArg some (beq_iff_eq.1 e).symm)⟩

/-- An artifact that no generation is at work on is as before. -/
theorem has_left (hs : s.Sound) (hown : s.Generating own) (h : Tended s s' own own')
    {a : Artifact} (ha : s.Has a) (hleft : a.Left) : s'.Has a := by
  refine h.has ha fun e => ?_
  obtain ⟨b, hb, hid, hnot⟩ := hown _ e
  have heq := hs.artifacts.eq_of_id_eq hb ha hid
  obtain rfl : b = a := congrArg ArtifactRow.artifact heq
  exact hnot hleft

theorem generating (hown : s.Generating own) (h : Tended s s' own own') : s'.Generating own' := by
  intro id hid
  cases h with
  | aside own h =>
    obtain ⟨a, ha, hrest⟩ := hown id hid
    exact ⟨a, by rwa [Has, h], hrest⟩
  | added new h =>
    refine ⟨new.artifact s.artifacts.next, ?_, Option.some.inj hid, fun hleft => hleft rfl⟩
    rw [Has, h]
    exact mem_push.2 (Or.inr rfl)
  | released => cases hid

/-- What comes into the hands of a generation was in its hands before, or is new. -/
theorem own_of_own (h : Tended s s' own own') {id : Id} (hid : own' = some id) :
    own = some id ∨ id = s.artifacts.next := by
  cases h with
  | aside => exact Or.inl hid
  | added => exact Or.inr (Option.some.inj hid).symm
  | released => cases hid

end Tended

section
variable {ε α : Type} {t : Task ε α} {own : Option Id} {s : Store}

/-- A task that tends an artifact goes on to do so. -/
theorem Task.tended_turn (ht : t.rest.Tends own) (hs : s.Sound) (hown : s.Generating own) :
    (t.turn s).2.Sound ∧ ∃ own', (t.turn s).1.rest.Tends own' ∧
      Tended s (t.turn s).2 own own' := by
  cases hrest : t.rest with
  | done r =>
    rw [turn_done hrest]
    exact ⟨hs, own, ht, .aside own rfl⟩
  | call c next =>
    rw [turn_call hrest]
    rw [hrest] at ht
    cases ht with
    | aside hc hnext =>
      have hspares : SparesArtifacts s (t.around.answer _ c ⟨s, t.past⟩).2.store := by
        cases c with
        | store action => exact hc.2.run s
        | convert | merge | upload | now | today => exact refl_of SparesArtifacts s
      obtain ⟨hsound, hsame⟩ := hspares hs
      exact ⟨hsound, own, hnext _, .aside own hsame⟩
    | @insert new _ hnext =>
      have hrun := Action.run_of_ok ((insertArtifact_eq_ok hs (a := new)).2 ⟨rfl, rfl⟩)
      simp only [Surroundings.answer, hrun]
      exact ⟨hs.pushArtifact new, _, hnext _, .added new rfl⟩
    | @release id _ action _ haction hnext =>
      obtain ⟨b, f, hf, hleft, hok⟩ := haction.leaves s hs
        ((hown id rfl).imp fun a ha => ⟨ha.1, ha.2.1⟩)
      obtain ⟨r, hr⟩ := hnext b
      simp only [Surroundings.answer, Action.run_of_ok hok, hr]
      exact ⟨hs.changeArtifact id hf, none, .done r, .released id hf hleft rfl⟩

/-- A turn of a task may come before or after a change to an artifact that is there and not its
    own. -/
theorem Task.turn_changeArtifact (ht : t.rest.Tends own) (hs : s.Sound) {k : Id}
    (hk : k ≠ s.artifacts.next) (hown : own ≠ some k) {f : Artifact → Artifact}
    (hf : ∀ a, (f a).id = a.id) :
    t.turn (s.changeArtifact k f) = ((t.turn s).1, (t.turn s).2.changeArtifact k f) := by
  cases hrest : t.rest with
  | done r => rw [turn_done hrest, turn_done hrest]
  | call c next =>
    rw [turn_call hrest, turn_call hrest]
    rw [hrest] at ht
    have hanswer : ∀ {β : Type} {action : Action StoreError β}, action.Passes s k →
        t.around.answer _ (.store action) ⟨s.changeArtifact k f, t.past⟩ =
          ((t.around.answer _ (.store action) ⟨s, t.past⟩).1,
            ⟨(t.around.answer _ (.store action) ⟨s, t.past⟩).2.store.changeArtifact k f,
              t.past⟩) := by
      intro β action hpass
      simp only [Surroundings.answer, hpass.run hf]
    cases ht with
    | aside hc hnext =>
      cases c with
      | store action =>
        rw [hanswer (hc.1 s k)]
        rfl
      | convert | merge | upload | now | today => rfl
    | insert hnext =>
      rw [hanswer (passes_insertArtifact hs hk _)]
      rfl
    | release haction hnext =>
      rw [hanswer (haction.passes s k fun e => hown (congrArg some e.symm))]
      rfl

end

/-! ## The run of the queue -/

namespace Delivery

/-- What is left of a run of the queue once an attempt was made: noting it, and more attempts. -/
def recording (options : Resolved) (x : Attempt) (as : List Artifact) (report : Report) :
    Work StoreError Report := do
  let _ ← Work.attempt id (.store (recordOutcome x.after))
  processAll options as (report.count x.outcome)

/-- An attempt without a file makes no call, one with a file uploads it. -/
theorem run_deliver (around : Surroundings) (past : List Event) (options : Resolved)
    (a : Artifact) :
    let x := attempt around options past a
    ((deliver options a).run = .done x.result ∧ x.events = []) ∨
    ∃ path pdf timeout next, (deliver options a).run = .call (.upload path pdf timeout) next ∧
      next (around.upload past path pdf timeout) = .done x.result ∧
      x.events = [.upload path pdf timeout (around.upload past path pdf timeout)] := by
  intro x
  cases hfile : file? a with
  | none =>
    refine Or.inl ⟨?_, by simp [Attempt.events, Attempt.upload?, x, attempt, hfile]⟩
    unfold deliver x attempt
    cases hpdf : a.pdf with
    | none => rfl
    | some pdf =>
      have hempty : pdf.isEmpty := by simpa [file?, hpdf] using hfile
      simp only [hempty, ↓reduceIte]
      rfl
  | some pdf =>
    obtain ⟨hpdf, hempty⟩ : a.pdf = some pdf ∧ pdf.isEmpty = false := by
      simpa [file?, Option.filter_eq_some_iff] using hfile
    refine Or.inr ⟨remotePath a options.workDir, pdf, options.timeout,
      fun answer => .done (answer.map fun _ => remotePath a options.workDir), ?_, ?_, ?_⟩
    · unfold deliver
      simp only [hpdf, hempty, Bool.false_eq_true, ↓reduceIte]
      exact congrArg (Program.call _) (funext fun answer => by cases answer <;> rfl)
    · simp only [x, attempt, hpdf, hempty, Bool.false_eq_true, ↓reduceIte]
    · simp only [Attempt.events, Attempt.upload?, x, attempt, hfile, hpdf, hempty,
        Bool.false_eq_true, ↓reduceIte, Option.map_some, Option.toList_some, List.map_cons,
        List.map_nil]
      cases around.upload past (remotePath a options.workDir) pdf options.timeout <;> rfl

theorem run_processAll_cons (around : Surroundings) (past : List Event) (options : Resolved)
    (a : Artifact) (as : List Artifact) (report : Report) :
    let x := attempt around options past a
    ((processAll options (a :: as) report).run = (recording options x as report).run ∧
      x.events = []) ∨
    ∃ path pdf timeout next,
      (processAll options (a :: as) report).run = .call (.upload path pdf timeout) next ∧
      next (around.upload past path pdf timeout) = (recording options x as report).run ∧
      x.events = [.upload path pdf timeout (around.upload past path pdf timeout)] := by
  intro x
  have hrun : (processAll options (a :: as) report).run = (deliver options a).run >>= fun result =>
      (recording options ⟨a, options, result⟩ as report).run := by
    have hwork : processAll options (a :: as) report = ExceptT.lift (deliver options a).run >>=
        fun result => recording options ⟨a, options, result⟩ as report := by
      unfold processAll processOne recording
      simp only [bind_assoc, pure_bind]
      rfl
    rw [hwork]
    exact ExceptT.run_bind_lift ..
  rcases run_deliver around past options a with
    ⟨h, hevents⟩ | ⟨path, pdf, timeout, next, h, hnext, hevents⟩
  · rw [hrun, h]
    exact Or.inl ⟨rfl, hevents⟩
  · rw [hrun, h]
    refine Or.inr ⟨path, pdf, timeout, _, rfl, ?_, hevents⟩
    rw [hnext]
    rfl

/-- A run of the queue on its way, with the attempts that are not noted yet and a bound on the calls
    to come: it is between two attempts, or has one made that is to be noted next.  In the end it
    will have a report and the calls that it made. -/
inductive Delivering (options : Resolved) (total : Report) (events : List Event)
    (t : Task StoreError Report) : List Attempt → Nat → Prop
  | between {as : List Artifact} {report : Report} {xs : List Attempt}
    (hrest : t.rest = (processAll options as report).run)
    (hxs : attempts t.around options as t.past = xs)
    (htotal : xs.foldl (fun r x => r.count x.outcome) report = total)
    (hevents : t.past ++ xs.flatMap (·.events) = events) :
    Delivering options total events t xs (2 * as.length)
  | uploaded {x : Attempt} {as : List Artifact} {report : Report} {xs : List Attempt}
    (hrest : t.rest = (recording options x as report).run)
    (hxs : attempts t.around options as t.past = xs)
    (htotal : (x :: xs).foldl (fun r x => r.count x.outcome) report = total)
    (hevents : t.past ++ xs.flatMap (·.events) = events) :
    Delivering options total events t (x :: xs) (2 * as.length + 1)

namespace Delivering

variable {options : Resolved} {total : Report} {events : List Event} {t : Task StoreError Report}
  {xs : List Attempt} {n : Nat}

/-- What noting an attempt does. -/
theorem record {x : Attempt} {as : List Artifact} {report : Report}
    (hrest : t.rest = (recording options x as report).run)
    (hxs : attempts t.around options as t.past = xs)
    (htotal : (x :: xs).foldl (fun r x => r.count x.outcome) report = total)
    (hevents : t.past ++ xs.flatMap (·.events) = events) (s : Store) :
    (t.turn s).2 = s.changeArtifact x.artifact.id x.onto ∧
      (t.turn s).1.actions = t.actions + 1 ∧
      Delivering options total events (t.turn s).1 xs (2 * as.length) := by
  have hturn := Task.turn_call (s := s) hrest
  rw [hturn]
  exact ⟨x.after_id ▸ rfl, rfl, .between rfl hxs htotal hevents⟩

/-- A turn of the run: it is done, or makes an upload, or notes the next attempt. -/
theorem turn (h : Delivering options total events t xs n) (s : Store) :
    (xs = [] ∧ n = 0 ∧ t.rest = .done (.ok total) ∧ t.past = events) ∨
    ((t.turn s).2 = s ∧ (t.turn s).1.actions = t.actions ∧
      ∃ m < n, Delivering options total events (t.turn s).1 xs m) ∨
    ∃ x ys, xs = x :: ys ∧ (t.turn s).2 = s.changeArtifact x.artifact.id x.onto ∧
      (t.turn s).1.actions = t.actions + 1 ∧
      ∃ m < n, Delivering options total events (t.turn s).1 ys m := by
  cases h with
  | @uploaded x as report xs hrest hxs htotal hevents =>
    obtain ⟨hstore, hactions, hnext⟩ := record hrest hxs htotal hevents s
    exact Or.inr (Or.inr ⟨x, xs, rfl, hstore, hactions, _, by omega, hnext⟩)
  | @between as report xs hrest hxs htotal hevents =>
    cases as with
    | nil =>
      subst hxs
      exact Or.inl ⟨rfl, rfl, htotal ▸ hrest, (List.append_nil _).symm.trans hevents⟩
    | cons a as =>
      have hattempts : attempts t.around options (a :: as) t.past =
        attempt t.around options t.past a :: attempts t.around options as
          (t.past ++ (attempt t.around options t.past a).events) := rfl
      rcases run_processAll_cons t.around t.past options a as report with
        ⟨hrun, hnone⟩ | ⟨path, pdf, timeout, next, hrun, hnext, hcalled⟩
      · rw [hnone, List.append_nil] at hattempts
        rw [← hxs, hattempts] at htotal hevents ⊢
        obtain ⟨hstore, hactions, hnext⟩ := record (hrest.trans hrun) rfl htotal
          (by simpa [hnone] using hevents) s
        exact Or.inr (Or.inr ⟨_, _, rfl, hstore, hactions, _, by simp, hnext⟩)
      · rw [hcalled] at hattempts
        rw [← hxs, hattempts] at htotal hevents ⊢
        have hturn := Task.turn_call (s := s) (hrest.trans hrun)
        rw [hturn]
        refine Or.inr (Or.inl ⟨rfl, rfl, 2 * as.length + 1, by simp; omega, ?_⟩)
        refine .uploaded hnext rfl htotal ?_
        rw [List.flatMap_cons, hcalled, ← List.append_assoc] at hevents
        exact hevents

/-- A run that is done has noted all its attempts. -/
theorem finished (h : Delivering options total events t xs n) {r : Except StoreError Report}
    (hr : t.rest = .done r) : xs = [] ∧ r = .ok total ∧ t.past = events := by
  induction n using Nat.strong_induction_on with
  | _ n ih =>
    have hsame := Task.turn_done (s := .empty) hr
    rcases h.turn .empty with ⟨rfl, -, hrest, hpast⟩ | ⟨-, -, m, hm, hnext⟩ |
      ⟨x, xs, -, -, hactions, -⟩
    · exact ⟨rfl, by rw [hrest] at hr; cases hr; rfl, hpast⟩
    · exact ih m hm (by rwa [hsame] at hnext)
    · rw [hsame] at hactions
      exact absurd hactions (by simp)

end Delivering

/-- The first turn of a run selects the artifacts, and leaves all attempts for them to come. -/
theorem delivering_start (around : Surroundings) (options : Options) (s : Store) :
    let xs := attempts around options.resolve (selected options.resolve s) []
    let t := (Task.start (process options) around).turn s
    t.2 = s ∧ t.1.actions = 1 ∧
      Delivering options.resolve (xs.foldl (fun r x => r.count x.outcome) .empty)
        (xs.flatMap (·.events)) t.1 xs (2 * xs.length) := by
  intro xs t
  have hselect : (do liftM ((← get).selectArtifacts (wanted options.resolve)
      options.resolve.limit) : Action StoreError _) s = .ok (selected options.resolve s, s) := by
    rw [Action.get_bind_eq_ok, Action.lift_eq_ok, selected_eq]
    exact ⟨selectArtifacts_eq _ _, rfl⟩
  have hlength : xs.length = (selected options.resolve s).length := by
    rw [← List.length_map (·.artifact), map_artifact_attempts]
  have hturn : t = (⟨around, (processAll options.resolve (selected options.resolve s) .empty).run,
      [], 1⟩, s) := by
    have hcall := Task.turn_call (t := Task.start (process options) around) (s := s) rfl
    simp only [Surroundings.answer, Action.run_of_ok hselect] at hcall
    exact hcall
  rw [hturn, hlength]
  exact ⟨rfl, rfl, .between rfl rfl rfl rfl⟩

end Delivery

/-! ## Crews -/

/-- A store with a run of the queue and generations on it. -/
structure Crew where
  store : Store
  worker : Task StoreError Delivery.Report
  generators : Nat → Task PackError Artifact

/-- Whose turn it is. -/
inductive Turn where
  | worker
  | generator (i : Nat)
  deriving DecidableEq

namespace Crew

/-- The crew after one turn. -/
def turn (c : Crew) : Turn → Crew
  | .worker => { c with store := (c.worker.turn c.store).2, worker := (c.worker.turn c.store).1 }
  | .generator i => { c with
      store := ((c.generators i).turn c.store).2
      generators := Function.update c.generators i ((c.generators i).turn c.store).1 }

/-- The crew after turns in order. -/
def turns (c : Crew) (ts : List Turn) : Crew := ts.foldl turn c

/-- A run of the queue and generations that are about to begin. -/
def start (s : Store) (around : Surroundings) (options : Delivery.Options)
    (calls : Nat → Surroundings × Generation.Setting × Request) : Crew where
  store := s
  worker := .start (Delivery.process options) around
  generators i := .start (generate (calls i).2.1 (calls i).2.2) (calls i).1

end Crew

/-! ## Generations beside each other -/

/-- Every generation tends its own artifact, which is being generated, and no two the same. -/
structure Orderly (own : Nat → Option Id) (c : Crew) : Prop where
  sound : c.store.Sound
  tends : ∀ i, (c.generators i).rest.Tends (own i)
  generating : ∀ i, c.store.Generating (own i)
  apart : ∀ i j id, own i = some id → own j = some id → i = j

namespace Orderly

variable {own : Nat → Option Id} {c : Crew}

theorem start {s : Store} (hs : s.Sound) (around : Surroundings) (options : Delivery.Options)
    (calls : Nat → Surroundings × Generation.Setting × Request) :
    Orderly (fun _ => none) (.start s around options calls) where
  sound := hs
  tends i := tends_generate (calls i).2.1 (calls i).2.2
  generating _ _ h := by cases h
  apart _ _ _ h := by cases h

/-- What is in the hands of a generation is there, so it is not the next artifact. -/
theorem ne_next (h : Orderly own c) {i : Nat} {id : Id} (hid : own i = some id) :
    id ≠ c.store.artifacts.next := by
  obtain ⟨a, ha, rfl, -⟩ := h.generating i id hid
  exact Int.ne_of_lt (h.sound.artifacts.lt_next ha)

/-- The turn of a generation. -/
theorem generator (h : Orderly own c) (i : Nat) :
    ∃ own', Orderly (Function.update own i own') (c.turn (.generator i)) ∧
      Tended c.store (c.turn (.generator i)).store (own i) own' := by
  obtain ⟨hsound, own', htends, htended⟩ :=
    Task.tended_turn (h.tends i) h.sound (h.generating i)
  refine ⟨own', ⟨hsound, fun j => ?_, fun j => ?_, ?_⟩, htended⟩
  · by_cases hj : j = i
    · subst hj
      simpa [Crew.turn] using htends
    · simpa [Crew.turn, hj] using h.tends j
  · by_cases hj : j = i
    · subst hj
      simpa [Crew.turn] using htended.generating (h.generating j)
    · rw [Function.update_of_ne hj]
      intro id hid
      obtain ⟨a, ha, rfl, hleft⟩ := h.generating j id hid
      exact ⟨a, htended.has ha fun e => hj (h.apart i j _ e hid).symm, rfl, hleft⟩
  · have hne : ∀ j, j ≠ i → ∀ id, own' = some id → own j ≠ some id := fun j hj id hid hown => by
      rcases htended.own_of_own hid with hid | hid
      · exact hj (h.apart j i id hown hid)
      · exact h.ne_next hown hid
    intro j k id hj hk
    by_cases hji : j = i <;> by_cases hki : k = i
    · exact hji.trans hki.symm
    · rw [hji, Function.update_self] at hj
      rw [Function.update_of_ne hki] at hk
      exact (hne k hki id hj hk).elim
    · rw [hki, Function.update_self] at hk
      rw [Function.update_of_ne hji] at hj
      exact (hne j hji id hk hj).elim
    · rw [Function.update_of_ne hji] at hj
      rw [Function.update_of_ne hki] at hk
      exact h.apart j k id hj hk

end Orderly

namespace Delivery

/-- A turn of a task may come before or after attempts for artifacts that are there and not its own
    are noted. -/
theorem turn_noted {ε α : Type} {t : Task ε α} {own : Option Id} (ht : t.rest.Tends own) {s : Store}
    (hs : s.Sound) {xs : List Attempt} (hnext : ∀ x ∈ xs, x.artifact.id ≠ s.artifacts.next)
    (hown : ∀ x ∈ xs, own ≠ some x.artifact.id) :
    t.turn (noted s xs) = ((t.turn s).1, noted (t.turn s).2 xs) := by
  induction xs generalizing s with
  | nil => rfl
  | cons x xs ih =>
    obtain ⟨hnext, hnexts⟩ := List.forall_mem_cons.1 hnext
    obtain ⟨hown, howns⟩ := List.forall_mem_cons.1 hown
    have hx : ∀ a, (x.onto a).id = a.id := fun _ => rfl
    refine (ih (hs.changeArtifact x.artifact.id hx) hnexts howns).trans ?_
    rw [Task.turn_changeArtifact ht hs hnext hown hx]
    rfl

/-- A crew whose run of the queue has noted some attempts and not others, beside one where that run
    was done at once. -/
structure Beside (options : Resolved) (total : Report) (events : List Event) (own : Nat → Option Id)
    (before after : List Attempt) (n : Nat) (c c' : Crew) : Prop where
  orderly : Orderly own c
  delivering : Delivering options total events c.worker after n
  actions : c.worker.actions = before.length + 1
  nodup : ((before ++ after).map (·.artifact.id)).Nodup
  noted : ∀ x ∈ before, c.store.Has x.after
  kept : ∀ x ∈ after, c.store.Has x.artifact
  left : ∀ x ∈ after, x.artifact.Left
  store : c'.store = Delivery.noted c.store after
  generators : c'.generators = c.generators

namespace Beside

variable {options : Resolved} {total : Report} {events : List Event} {own : Nat → Option Id}
  {before after : List Attempt} {n : Nat} {c c' : Crew}

/-- No generation has an artifact in its hands that is to be noted. -/
theorem own_ne (h : Beside options total events own before after n c c') (i : Nat) {x : Attempt}
    (hx : x ∈ after) : own i ≠ some x.artifact.id := by
  intro hown
  obtain ⟨a, ha, hid, hnot⟩ := h.orderly.generating i _ hown
  have heq := h.orderly.sound.artifacts.eq_of_id_eq ha (h.kept x hx) hid
  obtain rfl : a = x.artifact := congrArg ArtifactRow.artifact heq
  exact hnot (h.left x hx)

/-- The artifacts of the attempts are as they are, after the turn of a generation. -/
theorem has_generator (h : Beside options total events own before after n c c') (i : Nat) :
    (∀ x ∈ before, (c.turn (.generator i)).store.Has x.after) ∧
      ∀ x ∈ after, (c.turn (.generator i)).store.Has x.artifact := by
  obtain ⟨own', -, htended⟩ := h.orderly.generator i
  have hkeeps : ∀ {a : Artifact}, c.store.Has a → a.Left → (c.turn (.generator i)).store.Has a :=
    htended.has_left h.orderly.sound (h.orderly.generating i)
  refine ⟨fun x hx => hkeeps (h.noted x hx) fun hstatus => ?_,
    fun x hx => hkeeps (h.kept x hx) (h.left x hx)⟩
  have hafter := x.after_status
  rw [hstatus] at hafter
  simp at hafter

/-- The turn of a generation, in both crews. -/
theorem generator (h : Beside options total events own before after n c c') (i : Nat) :
    ∃ own', Beside options total events own' before after n (c.turn (.generator i))
      (c'.turn (.generator i)) := by
  obtain ⟨own', horderly, -⟩ := h.orderly.generator i
  have hturn : (c.generators i).turn c'.store = (((c.generators i).turn c.store).1,
      Delivery.noted ((c.generators i).turn c.store).2 after) := by
    rw [h.store]
    refine turn_noted (h.orderly.tends i) h.orderly.sound (fun x hx => ?_) fun x => h.own_ne i
    exact Int.ne_of_lt (h.orderly.sound.artifacts.lt_next (h.kept x hx))
  refine ⟨_, horderly, h.delivering, h.actions, h.nodup, (h.has_generator i).1,
    (h.has_generator i).2, h.left, ?_, ?_⟩
  · simp only [Crew.turn, h.generators, hturn]
  · simp only [Crew.turn, h.generators, hturn]

/-- Noting the next attempt. -/
theorem record {x : Attempt} {xs : List Attempt} {m : Nat}
    (h : Beside options total events own before (x :: xs) n c c')
    (hstore : (c.worker.turn c.store).2 = c.store.changeArtifact x.artifact.id x.onto)
    (hactions : (c.worker.turn c.store).1.actions = c.worker.actions + 1)
    (hnext : Delivering options total events (c.worker.turn c.store).1 xs m) :
    Beside options total events own (before ++ [x]) xs m (c.turn .worker) c' := by
  have hid : ∀ a, (x.onto a).id = a.id := fun _ => rfl
  have hkeeps : ∀ {a : Artifact}, c.store.Has a → a.id ≠ x.artifact.id →
      (c.turn .worker).store.Has a := fun {a} ha hne => by
    have hmem : (c.store.changeArtifact x.artifact.id x.onto).Has a :=
      mem_change.2 ⟨_, ha, if_neg (by simpa using hne)⟩
    rwa [← hstore] at hmem
  have hx : (c.turn .worker).store.Has x.after := by
    have hmem : (c.store.changeArtifact x.artifact.id x.onto).Has x.after :=
      mem_change.2 ⟨_, h.kept x List.mem_cons_self, by simp [x.onto_artifact]⟩
    rwa [← hstore] at hmem
  have hnodup : ((before ++ x :: xs).map (·.artifact.id)).Nodup := h.nodup
  rw [List.map_append, List.map_cons, List.nodup_append'] at hnodup
  obtain ⟨-, hlater, hearlier⟩ := hnodup
  exact
    { orderly :=
        { sound := by
            have hsound := h.orderly.sound.changeArtifact x.artifact.id hid
            rwa [← hstore] at hsound
          tends := h.orderly.tends
          generating := fun i id hown => by
            obtain ⟨a, ha, rfl, hleft⟩ := h.orderly.generating i id hown
            refine ⟨a, hkeeps ha fun e => ?_, rfl, hleft⟩
            exact h.own_ne i List.mem_cons_self (e ▸ hown)
          apart := h.orderly.apart }
      delivering := hnext
      actions := hactions.trans (by simp [h.actions])
      nodup := by simpa using h.nodup
      noted := by
        refine List.forall_mem_append.2 ⟨fun y hy => ?_, by simpa using hx⟩
        refine hkeeps (h.noted y hy) fun e => ?_
        exact hearlier (List.mem_map_of_mem hy)
          (List.mem_cons.2 (Or.inl (y.after_id.symm.trans e)))
      kept := fun y hy => by
        refine hkeeps (h.kept y (List.mem_cons_of_mem x hy)) fun e => ?_
        exact (List.nodup_cons.1 hlater).1 (List.mem_map.2 ⟨y, hy, e⟩)
      left := fun y hy => h.left y (List.mem_cons_of_mem x hy)
      store := by
        rw [h.store]
        exact congrArg (Delivery.noted · xs) hstore.symm
      generators := h.generators }

/-- A turn of the run of the queue, which is nothing to the other crew. -/
theorem worker (h : Beside options total events own before after n c c') :
    ∃ before' after' m, Beside options total events own before' after' m (c.turn .worker) c' ∧
      before' ++ after' = before ++ after ∧ m ≤ n - 1 := by
  rcases h.delivering.turn c.store with ⟨-, rfl, hrest, -⟩ | ⟨hstore, hactions, m, hm, hnext⟩ |
    ⟨x, xs, rfl, hstore, hactions, m, hm, hnext⟩
  · have hsame : c.turn .worker = c := by
      unfold Crew.turn
      rw [Task.turn_done hrest]
    exact ⟨before, after, 0, hsame.symm ▸ h, rfl, Nat.zero_le _⟩
  · have hsame : c.turn .worker = { c with worker := (c.worker.turn c.store).1 } :=
      congrArg (Crew.mk · _ _) hstore
    rw [hsame]
    exact ⟨before, after, m, { h with
      orderly := { h.orderly with }, delivering := hnext, actions := hactions.trans h.actions },
      rfl, by omega⟩
  · exact ⟨before ++ [x], xs, m, h.record hstore hactions hnext, by simp, by omega⟩

/-- Any turns, with those of the run of the queue left out for the other crew. -/
theorem turns (h : Beside options total events own before after n c c') (ts : List Turn) :
    ∃ own' before' after' m, Beside options total events own' before' after' m (c.turns ts)
        (c'.turns (ts.filter (· ≠ .worker))) ∧
      before' ++ after' = before ++ after ∧ m ≤ n - ts.count .worker := by
  induction ts generalizing own before after n c c' with
  | nil => exact ⟨own, before, after, n, h, rfl, Nat.le_refl _⟩
  | cons t ts ih =>
    cases t with
    | worker =>
      obtain ⟨before', after', m, h', hall, hm⟩ := h.worker
      obtain ⟨own', before'', after'', k, h'', hall', hk⟩ := ih h'
      refine ⟨own', before'', after'', k, ?_, hall'.trans hall, ?_⟩
      · rw [List.filter_cons_of_neg (by simp)]
        exact h''
      · rw [List.count_cons_self]
        omega
    | generator i =>
      obtain ⟨own₁, h'⟩ := h.generator i
      obtain ⟨own', before', after', m, h'', hall, hm⟩ := ih h'
      refine ⟨own', before', after', m, ?_, hall, ?_⟩
      · rw [List.filter_cons_of_pos (by simp)]
        exact h''
      · rwa [List.count_cons_of_ne (by simp)]

/-- A turn of the run of the queue leaves the row of an artifact that is not to be noted. -/
theorem artifactRow?_worker (h : Beside options total events own before after n c c') {id : Id}
    (hid : ∀ x ∈ after, x.artifact.id ≠ id) :
    (c.turn .worker).store.artifactRow? id = c.store.artifactRow? id := by
  change (c.worker.turn c.store).2.artifactRow? id = c.store.artifactRow? id
  rcases h.delivering.turn c.store with ⟨-, -, hrest, -⟩ | ⟨hstore, -⟩ | ⟨x, xs, rfl, hstore, -⟩
  · rw [Task.turn_done hrest]
  · rw [hstore]
  · rw [hstore]
    exact artifactRow?_changeArtifact (hid x List.mem_cons_self) fun _ => rfl

/-- The row of an artifact of the run, before and after its attempt is noted. -/
theorem artifactRow?_eq (h : Beside options total events own before after n c c') :
    (∀ x ∈ before, c.store.artifactRow? x.artifact.id = some ⟨x.after, none⟩) ∧
      ∀ x ∈ after, c.store.artifactRow? x.artifact.id = some ⟨x.artifact, none⟩ :=
  ⟨fun x hx => x.after_id ▸ artifactRow?_of_has h.orderly.sound (h.noted x hx),
    fun x hx => artifactRow?_of_has h.orderly.sound (h.kept x hx)⟩

/-- A generation changes no artifact of the run. -/
theorem artifactRow?_generator (h : Beside options total events own before after n c c') (i : Nat)
    {x : Attempt} (hx : x ∈ before ++ after) :
    (c.turn (.generator i)).store.artifactRow? x.artifact.id =
      c.store.artifactRow? x.artifact.id := by
  obtain ⟨own', h'⟩ := h.generator i
  rcases List.mem_append.1 hx with hx | hx
  · rw [h.artifactRow?_eq.1 x hx, h'.artifactRow?_eq.1 x hx]
  · rw [h.artifactRow?_eq.2 x hx, h'.artifactRow?_eq.2 x hx]

/-- Once its calls are used up, the run is done. -/
theorem done (h : Beside options total events own before after 0 c c') :
    c.worker.rest = .done (.ok total) := by
  rcases h.delivering.turn c.store with ⟨-, -, hrest, -⟩ | ⟨-, -, m, hm, -⟩ |
    ⟨-, -, -, -, -, m, hm, -⟩
  · exact hrest
  · exact (Nat.not_lt_zero m hm).elim
  · exact (Nat.not_lt_zero m hm).elim

/-- Once the run is done, all is as if it had been done at once. -/
theorem finished (h : Beside options total events own before after n c c')
    {r : Except StoreError Report} (hr : c.worker.rest = .done r) :
    r = .ok total ∧ c.worker.past = events ∧ c.store = c'.store ∧
      c.generators = c'.generators := by
  obtain ⟨rfl, hreport, hpast⟩ := h.delivering.finished hr
  exact ⟨hreport, hpast, h.store.symm, h.generators.symm⟩

end Beside

/-! ## One run beside generations -/

/-- A crew whose run of the queue has selected its artifacts, beside one where it was done at
    once. -/
theorem beside_start {own : Nat → Option Id} {c : Crew} (h : Orderly own c) (around : Surroundings)
    (options : Options) (hworker : c.worker = .start (process options) around) :
    let xs := attempts around options.resolve (selected options.resolve c.store) []
    Beside options.resolve (xs.foldl (fun r x => r.count x.outcome) .empty)
      (xs.flatMap (·.events)) own [] xs (2 * xs.length) (c.turn .worker)
      { c with store := noted c.store xs } := by
  intro xs
  obtain ⟨hstore, hactions, hdelivering⟩ := delivering_start around options c.store
  rw [← hworker] at hstore hactions hdelivering
  have hbatch : Batch c.store xs :=
    batch_attempts (w := ⟨c.store, []⟩) h.sound (.processing around options)
  have hturn : c.turn .worker = { c with worker := (c.worker.turn c.store).1 } :=
    congrArg (Crew.mk · _ _) hstore
  rw [hturn]
  exact
    { orderly := { h with }
      delivering := hdelivering
      actions := hactions
      nodup := hbatch.nodup
      noted := by simp
      kept := hbatch.has
      left := fun x hx hstatus => by
        have hwanted := hbatch.status x hx
        rw [hstatus, mem_wanted] at hwanted
        simp at hwanted
      store := rfl
      generators := rfl }

/-- Generations that take their turns before the run of the queue begins. -/
theorem orderly_generators {own : Nat → Option Id} {c : Crew} (h : Orderly own c) (is : List Nat) :
    (∃ own', Orderly own' (c.turns (is.map .generator))) ∧
      (c.turns (is.map .generator)).worker = c.worker := by
  induction is generalizing own c with
  | nil => exact ⟨⟨own, h⟩, rfl⟩
  | cons i is ih =>
    obtain ⟨own', horderly, -⟩ := h.generator i
    exact ih horderly

/-- **A run of the queue is safe beside generations.**  However their turns alternate: an artifact
    that the run selected keeps its row until the outcome is noted, and has the row after its
    attempt from then on; the run changes no artifact whose generation had not finished when it
    selected, and no generation changes an artifact of the run.  The run comes to its end, and then
    the store, the report and the uploads are as if it had been done at once when it selected. -/
theorem worker_beside_generators (s : Store) (hs : s.Sound) (around : Surroundings)
    (options : Options) (calls : Nat → Surroundings × Generation.Setting × Request)
    (before : List Nat) (after : List Turn) :
    let c₀ := (Crew.start s around options calls).turns (before.map .generator)
    let xs := attempts around options.resolve (selected options.resolve c₀.store) []
    let atOnce := (process options).on around ⟨c₀.store, []⟩
    let c := (c₀.turn .worker).turns after
    let c' := { c₀ with store := atOnce.2.store }.turns (after.filter (· ≠ Turn.worker))
    let noted := c.worker.actions - 1
    xs.map (·.artifact) = selected options.resolve c₀.store ∧
    (∀ x ∈ xs.drop noted,
      c.store.artifactRow? x.artifact.id = c₀.store.artifactRow? x.artifact.id) ∧
    (∀ x ∈ xs.take noted, c.store.artifactRow? x.artifact.id = some ⟨x.after, none⟩) ∧
    (∀ id, (∀ a, c₀.store.Has a → a.id = id → a.status = .generated) →
      (c.turn .worker).store.artifactRow? id = c.store.artifactRow? id) ∧
    (∀ i, ∀ x ∈ xs, (c.turn (.generator i)).store.artifactRow? x.artifact.id =
      c.store.artifactRow? x.artifact.id) ∧
    (2 * xs.length ≤ after.count .worker → ∃ r, c.worker.rest = .done r) ∧
    ∀ r, c.worker.rest = .done r → r = atOnce.1 ∧ c.worker.past = atOnce.2.past ∧
      c.store = c'.store ∧ c.generators = c'.generators := by
  intro c₀ xs atOnce c c' noted
  obtain ⟨⟨own₀, horderly⟩, hworker⟩ :=
    orderly_generators (Orderly.start hs around options calls) before
  have hatOnce : atOnce = (.ok (xs.foldl (fun r x => r.count x.outcome) .empty),
      ⟨Delivery.noted c₀.store xs, xs.flatMap (·.events)⟩) :=
    on_process around ⟨c₀.store, []⟩ options
  have hbegin := beside_start horderly around options hworker
  change Beside _ _ _ own₀ [] xs _ (c₀.turn .worker) { c₀ with store := Delivery.noted c₀.store xs }
    at hbegin
  have hbatch : Batch c₀.store xs :=
    batch_attempts (w := ⟨c₀.store, []⟩) horderly.sound (.processing around options)
  obtain ⟨own, done, todo, n, h, hall, hn⟩ := hbegin.turns after
  rw [show Delivery.noted c₀.store xs = atOnce.2.store by rw [hatOnce]] at h
  change Beside _ _ _ own done todo n c c' at h
  have hnoted : noted = done.length := by simp [noted, h.actions]
  rw [List.nil_append] at hall
  refine ⟨map_artifact_attempts _ _, ?_, ?_, ?_, ?_, ?_, ?_⟩
  · rw [hnoted, ← hall, List.drop_left]
    intro x hx
    have hx₀ : c₀.store.Has x.artifact := hbatch.has x (hall ▸ List.mem_append_right _ hx)
    rw [h.artifactRow?_eq.2 x hx]
    exact (artifactRow?_of_has horderly.sound hx₀).symm
  · rw [hnoted, ← hall, List.take_left]
    exact h.artifactRow?_eq.1
  · intro id hid
    refine h.artifactRow?_worker fun x hx hxid => ?_
    have hmem : x ∈ xs := hall ▸ List.mem_append_right _ hx
    exact hbegin.left x hmem (hid x.artifact (hbatch.has x hmem) hxid)
  · intro i x hx
    exact h.artifactRow?_generator i (hall ▸ hx)
  · intro hcount
    change n ≤ 2 * xs.length - after.count .worker at hn
    obtain rfl : n = 0 := by omega
    exact ⟨_, h.done⟩
  · intro r hr
    rw [hatOnce]
    exact h.finished hr

/-- A run of the queue and generations of one pack, on the store that a generation left. -/
def sampleCrew (s : Store) : Crew :=
  .start s (uploading (.ok ())) ⟨none, false, none, none, "work"⟩
    fun _ => (uploading (.ok ()), sampleSetting, .ofPack "A")

/-- A run of the queue whose turns alternate with those of a generation ends, and delivers what was
    there when it began. -/
theorem sample_crew_delivers : ∃ r, (((sampleCrew (World.start.runAll sampleGeneration).store).turn
      .worker).turns [.generator 0, .worker, .generator 0, .worker]).worker.rest = .done (.ok r) ∧
    r.processed = 1 := by
  have hreport : ((process ⟨none, false, none, none, "work"⟩).on (uploading (.ok ()))
      ⟨(World.start.runAll sampleGeneration).store, []⟩).1 = .ok ⟨1, 1, 0, 0⟩ := by
    decide +kernel
  have hlength : (selected (Options.resolve ⟨none, false, none, none, "work"⟩)
      (World.start.runAll sampleGeneration).store).length = 1 := by
    decide +kernel
  have hs : (World.start.runAll sampleGeneration).store.Sound := sound_runAll sound_empty _
  generalize World.start.runAll sampleGeneration = w at hreport hlength hs ⊢
  obtain ⟨hselected, -, -, -, -, hends, hdone⟩ := worker_beside_generators w.store hs
    (uploading (.ok ())) ⟨none, false, none, none, "work"⟩
    (fun _ => (uploading (.ok ()), sampleSetting, .ofPack "A")) []
    [.generator 0, .worker, .generator 0, .worker]
  have hone := congrArg List.length hselected
  rw [List.length_map] at hone
  obtain ⟨r, hr⟩ := hends (Nat.mul_le_mul_left 2 (hone.trans hlength).le)
  obtain rfl : r = .ok ⟨1, 1, 0, 0⟩ := (hdone r hr).1.trans hreport
  exact ⟨_, hr, rfl⟩

end Delivery

end Waybill
