/-
  Programs: computations that ask their surroundings.

  A program is done with a value, or makes a call and goes on with the answer.  What a call does is
  not part of the program: a handler says so when the program is run.

  * `Program` is the type, a monad; `Program.ask` makes one call;
  * `Program.run` runs a program with a handler in any monad.

  Statement: `run_bind` (running follows the program's steps).
-/

namespace Waybill

universe u

/-- A computation that makes calls and goes on with their answers. -/
inductive Program (Call : Type → Type 1) (α : Type) : Type 1 where
  | done (a : α)
  | call {β : Type} (c : Call β) (next : β → Program Call α)

namespace Program

variable {Call : Type → Type 1}

/-- A program, and another one with its value. -/
def bind {α β : Type} (p : Program Call α) (f : α → Program Call β) : Program Call β :=
  match p with
  | .done a => f a
  | .call c next => .call c fun answer => bind (next answer) f

instance : Monad (Program Call) where
  pure := .done
  bind := bind

/-- One call and its answer. -/
def ask {α : Type} (c : Call α) : Program Call α :=
  .call c .done

/-- What calls do: an effect for each. -/
abbrev Handler (Call : Type → Type 1) (m : Type → Type u) : Type (max 1 u) :=
  (β : Type) → Call β → m β

/-- Runs a program, each call by the handler. -/
def run {α : Type} {m : Type → Type u} [Monad m] (handler : Handler Call m) :
    Program Call α → m α
  | .done a => pure a
  | .call c next => do run handler (next (← handler _ c))

variable {m : Type → Type u} [Monad m] (handler : Handler Call m)

theorem run_bind [LawfulMonad m] {α β : Type} (p : Program Call α) (f : α → Program Call β) :
    run handler (p >>= f) = run handler p >>= fun a => run handler (f a) := by
  induction p with
  | done a =>
    change run handler (f a) = pure a >>= fun a => run handler (f a)
    rw [pure_bind]
  | call c next ih =>
    calc run handler (Program.call c next >>= f)
        = handler _ c >>= fun b => run handler (next b >>= f) := rfl
      _ = handler _ c >>= fun b => (run handler (next b) >>= fun a => run handler (f a)) := by
        simp only [ih]
      _ = run handler (Program.call c next) >>= fun a => run handler (f a) := (bind_assoc ..).symm

end Program

end Waybill
