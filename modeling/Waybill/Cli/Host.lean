/-
  What the program asks of the machine it runs on.

  * `Call` is one such question: files, the environment, the clock, and the drive;
  * `Shell` is a program of calls that keeps the open store and a token for the drive;
  * `openStore` opens the store in a file, `change` does an action on it and keeps the result;
  * `answer` says what the steps of generation and delivery are on the machine.

  A store without a file lasts as long as the program.
-/
import Waybill.Drive.Client
import Waybill.Generation.Step
import Waybill.Pdf.Merge
import Waybill.Store.Saved

namespace Waybill.Cli

open Waybill.Drive Waybill.Generation

/-! ## Calls -/

/-- What is asked of the machine, with the type of the answer. -/
inductive Call : Type → Type 1 where
  /-- The content of a file. -/
  | read (path : String) : Call (Option ByteArray)
  /-- What reading the regular file at a path gives, if there is one. -/
  | readRegular (path : String) : Call (Option (Except String ByteArray))
  /-- A file is written; whether that was done. -/
  | write (path : String) (content : ByteArray) : Call Bool
  /-- The content of a file that may be written later; a new one is empty. -/
  | openFile (path : String) : Call (Option ByteArray)
  /-- A directory is made, with all those above it; whether it is there. -/
  | makeDirs (path : String) : Call Bool
  /-- What the environment says under a name. -/
  | environment (name : String) : Call (Option String)
  /-- A call of the drive's client. -/
  | drive {α : Type} (call : Drive.Call α) : Call α
  /-- The present moment in universal time. -/
  | now : Call Calendar.Instant
  /-- The present day where the program runs. -/
  | today : Call Calendar.Date

/-- The open store with the path of its file, and the token for the drive. -/
structure Desk where
  path : Option String
  store : Store
  token : Option Token
  deriving Inhabited

/-- A program of calls that keeps the store open. -/
abbrev Shell (α : Type) : Type 1 := StateT Desk (Program Call) α

/-- One call. -/
def ask {α : Type} (call : Call α) : Shell α :=
  StateT.lift (Program.ask call)

/-! ## The store -/

/-- Whether a store under a path is in no file. -/
def isTransient (path : String) : Bool :=
  path.isEmpty || path = ":memory:"

/-- The store under a path. -/
def openStore (path : String) : Program Call (Option Desk) := do
  if isTransient path then return some ⟨none, .empty, none⟩
  match ← Program.ask (.openFile path) with
  | none => return none
  | some file => return (Store.ofBytes? file).map fun s => ⟨some path, s, none⟩

/-- Changes the store and keeps the result in its file. -/
def change {α : Type} (f : StateM Store α) : Shell α := do
  let desk ← get
  let (a, store) := f.run desk.store
  set { desk with store }
  match desk.path with
  | some path => do
    let _ ← ask (.write path store.toBytes)
    return a
  | none => return a

/-- An action on the store. -/
def act {ε α : Type} (action : Action ε α) : Shell (Except ε α) :=
  change fun s => s.run action

/-! ## Steps -/

/-- A session with the drive. -/
def talk {ε α : Type} (session : Drive.Session ε α) : Shell (Except ε α) := do
  let p : Program Drive.Call (Except ε α × Option Token) := session.run.run (← get).token
  let passed : Program.Handler Drive.Call (Program Call) := fun _ call =>
    Program.ask (Call.drive call)
  let (result, token) ← StateT.lift (p.run passed)
  modify fun desk => { desk with token }
  return result

/-- What each step is on the machine, given how the drive is reached. -/
def answer (c : Config) : Program.Handler Step (StateT Desk (Program Call))
  | _, .store action => act action
  | _, .convert xlsx name timeout => talk (convert c xlsx name timeout)
  | _, .merge pdfs => return Pdf.mergeFiles .plain pdfs
  | _, .upload path pdf timeout => talk (upload c path pdf timeout)
  | _, .now => ask .now
  | _, .today => ask .today

/-- Steps of generation and delivery, done on the machine. -/
def work {ε α : Type} (c : Config) (w : Work ε α) : Shell (Except ε α) :=
  Program.run (answer c) w.run

end Waybill.Cli
