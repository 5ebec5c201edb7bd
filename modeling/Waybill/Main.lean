/-
  The program on a machine.

  Files, the environment and the clocks are those of the machine.  There is no way to the drive
  from here: what is sent there fails.  What a command tells is printed as JSON; a fault goes to
  the standard error output, and the program ends with a number other than zero.

  * `Machine.answer` is what each call does;
  * `main` reads the command line and does what it asks for.
-/
import Std.Time.Zoned
import Waybill.Cli.Run
import Waybill.Json.Printer

namespace Waybill.Machine

open Waybill.Calendar Waybill.Cli

/-! ## Calls -/

/-- The result of an action, if it ends well. -/
def ifDone {α : Type} (action : IO α) : IO (Option α) := do
  try return some (← action) catch _ => return none

/-- The present moment, counted from the start of 1970. -/
def now : IO Instant := do
  let nanos := (← Std.Time.Timestamp.now).toNanosecondsSinceUnixEpoch.val.toNat
  return Instant.ofEpoch (nanos / 10 ^ 9) (nanos % 10 ^ 9)

/-- The present day. -/
def today : IO Date := do
  let day ← Std.Time.PlainDate.now
  return (Date.of? day.year.toInt day.month.val.toNat day.day.val.toNat).getD default

/-- Thirty-two random hexadecimal digits. -/
def freshName : IO String := do
  let digit (n : Nat) : Char := Nat.digitChar (n % 16)
  let bytes ← IO.getRandomBytes 16
  return String.ofList (bytes.toList.flatMap fun b => [digit (b.toNat / 16), digit b.toNat])

/-- What a call of the drive's client does. -/
def driveAnswer : Program.Handler Drive.Call IO
  | _, .send r => return .error (.transport r.stage "the drive cannot be reached")
  | _, .now => IO.monoNanosNow
  | _, .freshName => freshName
  | _, .crash => throw (IO.userError "the time is too far away")

/-- What reading a regular file gives; nothing for a path that leads to none. -/
def readRegular (path : String) : IO (Option (Except String ByteArray)) := do
  try return some (.ok (← IO.FS.readBinFile path))
  catch
    | .noFileOrDirectory .. | .inappropriateType .. => return none
    | e => return some (.error (toString e))

/-- The content of a file; one that is not there is made. -/
def openFile (path : String) : IO ByteArray := do
  match ← ifDone (IO.FS.readBinFile path) with
  | some content => return content
  | none =>
    IO.FS.writeBinFile path .empty
    return .empty

/-- What a call does. -/
def answer : Program.Handler Call IO
  | _, .read path => ifDone (IO.FS.readBinFile path)
  | _, .readRegular path => readRegular path
  | _, .write path content => return (← ifDone (IO.FS.writeBinFile path content)).isSome
  | _, .openFile path => ifDone (openFile path)
  | _, .makeDirs path => return (← ifDone (IO.FS.createDirAll path)).isSome
  | _, .environment name => IO.getEnv name
  | _, .drive call => driveAnswer _ call
  | _, .now => now
  | _, .today => today

/-! ## Command lines -/

/-- Does what an invocation asks for; gives the number to end with. -/
def perform (i : Invocation) : IO UInt32 := do
  match ← i.run.run answer with
  | .ok told =>
    IO.println (told.pretty 0)
    return 0
  | .error e =>
    IO.eprintln ("Error: " ++ e.message)
    return 1

/-- Tells what was asked for, or the fault of a command line; gives the number to end with. -/
def tell (e : UsageError) : IO UInt32 := do
  match e with
  | .help =>
    IO.println program.synopsis
    return 0
  | .version =>
    IO.println e.message
    return 0
  | _ =>
    IO.eprintln ("error: " ++ e.message ++ "\n" ++ program.synopsis)
    return 2

end Waybill.Machine

/-- Does what the command line asks for. -/
def main (arguments : List String) : IO UInt32 :=
  match Waybill.Cli.Invocation.parse arguments with
  | .ok invocation => Waybill.Machine.perform invocation
  | .error e => Waybill.Machine.tell e
