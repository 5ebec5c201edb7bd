/-
  When an action succeeds.

  An action is a small program on the store.  Here is, for each way of making one, when it gives
  an answer with a store after it: `simp` unfolds an action by these into the facts that hold of
  the two stores.  `run_of_ok` and `run_of_error` say what running it leaves.

  * `Action.Keeps`: what an action does is within a relation between stores.
-/
import Mathlib
import Waybill.History.Edit

namespace Waybill

open Waybill.History

namespace Action

variable {ε α β : Type} {s s' : Store} {a b : α}

@[simp] theorem pure_eq_ok :
    (pure a : Action ε α) s = .ok (b, s') ↔ b = a ∧ s' = s := by
  simp only [pure, StateT.pure, Except.pure, Except.ok.injEq, Prod.mk.injEq]
  constructor <;> (rintro ⟨rfl, rfl⟩; exact ⟨rfl, rfl⟩)

@[simp] theorem bind_eq_ok {x : Action ε α} {f : α → Action ε β} {r : β × Store} :
    (x >>= f) s = .ok r ↔ ∃ a s₁, x s = .ok (a, s₁) ∧ f a s₁ = .ok r := by
  simp only [bind, StateT.bind]
  cases x s with
  | error e => simp [Except.bind]
  | ok p =>
    obtain ⟨a, s₁⟩ := p
    simp only [Except.bind, Except.ok.injEq, Prod.mk.injEq]
    exact ⟨fun h => ⟨a, s₁, ⟨rfl, rfl⟩, h⟩, fun ⟨_, _, ⟨rfl, rfl⟩, h⟩ => h⟩

@[simp] theorem map_eq_ok {x : Action ε α} {f : α → β} {b : β} :
    (f <$> x) s = .ok (b, s') ↔ ∃ a, x s = .ok (a, s') ∧ b = f a := by
  simp only [Functor.map, StateT.map]
  cases x s with
  | error e => simp [bind, Except.bind]
  | ok p =>
    obtain ⟨a, s₁⟩ := p
    simp only [bind, Except.bind, pure, Except.pure, Except.ok.injEq, Prod.mk.injEq]
    constructor
    · rintro ⟨rfl, rfl⟩; exact ⟨a, ⟨rfl, rfl⟩, rfl⟩
    · rintro ⟨_, ⟨rfl, rfl⟩, rfl⟩; exact ⟨rfl, rfl⟩

@[simp] theorem throw_eq_ok {e : ε} {r : α × Store} : (throw e : Action ε α) s = .ok r ↔ False := by
  simp [throw, throwThe, MonadExceptOf.throw, StateT.lift, bind, Except.bind]

@[simp] theorem get_eq_ok {r : Store} : (get : Action ε Store) s = .ok (r, s') ↔ r = s ∧ s' = s :=
  pure_eq_ok

theorem get_bind {f : Store → Action ε α} : ((get : Action ε Store) >>= f) s = f s s := rfl

theorem get_bind_eq_ok {f : Store → Action ε α} {r : α × Store} :
    ((get : Action ε Store) >>= f) s = .ok r ↔ f s s = .ok r := Iff.rfl

@[simp] theorem set_eq_ok {r : PUnit} {t : Store} :
    (set t : Action ε PUnit) s = .ok (r, s') ↔ s' = t := by
  simp only [set, StateT.set, pure, Except.pure, Except.ok.injEq, Prod.mk.injEq, true_and]
  exact eq_comm

theorem set_bind_eq_ok {t : Store} {f : PUnit → Action ε α} {r : α × Store} :
    ((set t : Action ε PUnit) >>= f) s = .ok r ↔ f ⟨⟩ t = .ok r := Iff.rfl

@[simp] theorem modify_eq_ok {f : Store → Store} {r : PUnit} :
    (modify f : Action ε PUnit) s = .ok (r, s') ↔ s' = f s := by
  simp only [modify, modifyGet, MonadStateOf.modifyGet, StateT.modifyGet, pure, Except.pure,
    Except.ok.injEq, Prod.mk.injEq, true_and]
  exact eq_comm

@[simp] theorem lift_eq_ok {x : Except ε α} :
    (liftM x : Action ε α) s = .ok (a, s') ↔ x = .ok a ∧ s' = s := by
  cases x with
  | error e => simp [liftM, monadLift, MonadLift.monadLift, StateT.lift, bind, Except.bind]
  | ok b =>
    simp only [liftM, monadLift, MonadLift.monadLift, StateT.lift, bind, Except.bind, pure,
      Except.pure, Except.ok.injEq, Prod.mk.injEq]
    exact ⟨fun ⟨h, h'⟩ => ⟨h, h'.symm⟩, fun ⟨h, h'⟩ => ⟨h, h'.symm⟩⟩

theorem lift_bind {x : Except ε α} {f : α → Action ε β} :
    ((liftM x : Action ε α) >>= f) s = match x with
      | .ok a => f a s
      | .error e => .error e := by
  cases x <;> rfl

theorem lift_bind_eq_ok {x : Except ε α} {f : α → Action ε β} {r : β × Store} :
    ((liftM x : Action ε α) >>= f) s = .ok r ↔ ∃ a, x = .ok a ∧ f a s = .ok r := by
  simp only [bind_eq_ok, lift_eq_ok]
  exact ⟨fun ⟨a, _, ⟨h, hs⟩, h'⟩ => ⟨a, h, hs ▸ h'⟩, fun ⟨a, h, h'⟩ => ⟨a, s, ⟨h, rfl⟩, h'⟩⟩

@[simp] theorem ite_eq_ok {c : Prop} [Decidable c] {x y : Action ε α} {r : α × Store} :
    (if c then x else y) s = .ok r ↔ c ∧ x s = .ok r ∨ ¬c ∧ y s = .ok r := by
  by_cases hc : c <;> simp [hc]

theorem guard_eq_ok {c : Prop} [Decidable c] {e : ε} {f : α → Action ε β} {x : Action ε β}
    {r : β × Store} :
    (if c then (throw e : Action ε α) >>= f else x) s = .ok r ↔ ¬c ∧ x s = .ok r := by
  by_cases hc : c <;> simp [hc]

@[simp] theorem lifted_eq_ok {x : Action StoreError α} {r : α × Store} :
    lifted x s = .ok r ↔ x s = .ok r := by
  unfold lifted
  cases x s <;> simp [Except.mapError]

theorem run_of_ok {x : Action ε α} (h : x s = .ok (a, s')) : s.run x = (.ok a, s') := by
  simp [Store.run, h]

theorem run_of_error {x : Action ε α} {e : ε} (h : x s = .error e) : s.run x = (.error e, s) := by
  simp [Store.run, h]

/-- What an action leaves is the store after it or, when it fails, the store before. -/
theorem run_cases (s : Store) (x : Action ε α) :
    (∃ a s', x s = .ok (a, s') ∧ s.run x = (.ok a, s')) ∨
      ∃ e, x s = .error e ∧ s.run x = (.error e, s) := by
  cases h : x s with
  | error e => exact Or.inr ⟨e, rfl, run_of_error h⟩
  | ok p => obtain ⟨a, s'⟩ := p; exact Or.inl ⟨a, s', rfl, run_of_ok h⟩

/-! ## Within a relation -/

/-- The store after the action is related to the one before. -/
def Keeps (R : Store → Store → Prop) (x : Action ε α) : Prop :=
  ∀ s a s', x s = .ok (a, s') → R s s'

theorem Keeps.mono {Q R : Store → Store → Prop} {x : Action ε α} (hx : Keeps Q x)
    (h : ∀ s s', Q s s' → R s s') : Keeps R x :=
  fun s a s' hxs => h s s' (hx s a s' hxs)

variable {R : Store → Store → Prop} [IsPreorder Store R]

theorem Keeps.pure (a : α) : Keeps R (Pure.pure a : Action ε α) := by
  intro s b s' h
  rw [(pure_eq_ok.1 h).2]
  exact refl_of R s

theorem Keeps.bind {x : Action ε α} {f : α → Action ε β} (hx : Keeps R x)
    (hf : ∀ a, Keeps R (f a)) : Keeps R (x >>= f) := by
  intro s b s' h
  obtain ⟨a, s₁, hxs, hfs⟩ := bind_eq_ok.1 h
  exact trans_of R (hx s a s₁ hxs) (hf a s₁ b s' hfs)

theorem Keeps.get : Keeps R (MonadState.get : Action ε Store) := by
  intro s a s' h
  rw [(get_eq_ok.1 h).2]
  exact refl_of R s

theorem Keeps.lift (x : Except ε α) : Keeps R (liftM x : Action ε α) := by
  intro s a s' h
  rw [(lift_eq_ok.1 h).2]
  exact refl_of R s

theorem Keeps.run {x : Action ε α} (hx : Keeps R x) (s : Store) : R s (s.run x).2 := by
  rcases run_cases s x with ⟨a, s', h, hrun⟩ | ⟨e, -, hrun⟩
  · rw [hrun]
    exact hx s a s' h
  · rw [hrun]
    exact refl_of R s

end Action

end Waybill
