/-
  The commands of the program.

  * `Command` is what is to be done, `Invocation` a command with the settings file;
  * `program` describes the command line, `Invocation.parse` reads one.
-/
import Waybill.Cli.Usage
import Waybill.Pack.Basic
import Waybill.Pack.Route
import Waybill.Text.Quoted

namespace Waybill.Cli

/-! ## Commands -/

/-- What to print: a pack by its code or by the type of a document, with the file of payloads. -/
structure Choice where
  pack : Option String
  type : Option String
  variant : Option String
  shipment : Option String
  carton : Option String
  payloads : String
  user : Option String
  deriving DecidableEq, Inhabited

/-- What is to be done. -/
inductive Command where
  | importCatalog (catalog : String) (user : Option String)
  | generate (choice : Choice) (directory : String)
  | renderXlsx (choice : Choice) (directory : String) (bundled : Bool)
  /-- The time for an upload is in seconds. -/
  | processQueue (limit : Option Nat) (maxAttempts : Option UInt32) (timeout : Option Nat)
    (includeFailed : Bool)
  | snapshot (document : Id) (note : String) (user : Option String)
  | restore (version : Id) (note : String) (user : Option String)
  | versions (document : Id)
  deriving DecidableEq, Inhabited

/-- A command with the path of the settings. -/
structure Invocation where
  settings : String
  command : Command
  deriving DecidableEq, Inhabited

/-! ## The command line -/

/-- The range of 64-bit integers. -/
def int64 : Kind := .int (-2 ^ 63) (2 ^ 63)

/-- The options by which a pack is chosen. -/
def choiceOptions : List OptionSpec := [
  ⟨"pack", .text⟩, ⟨"doc-type", .text⟩, ⟨"variant", .text⟩, ⟨"shipment", .text⟩,
  ⟨"carton", .text⟩, ⟨"payloads", .path⟩, ⟨"user", .text⟩]

/-- What has to be given to choose a pack. -/
def choiceRequired : List (List String) := [["pack", "doc-type"], ["payloads"]]

/-- The commands and their options. -/
def program : CommandLine where
  options := [⟨"config", .path⟩]
  commands := [
    ⟨"import-catalog", [⟨"catalog", .path⟩, ⟨"user", .text⟩], [["catalog"]], []⟩,
    ⟨"generate", choiceOptions ++ [⟨"out-dir", .path⟩], choiceRequired, [("pack", "doc-type")]⟩,
    ⟨"render-xlsx", choiceOptions ++ [⟨"out-dir", .path⟩, ⟨"bundle", .flag⟩],
      choiceRequired ++ [["out-dir"]], [("pack", "doc-type")]⟩,
    ⟨"process-queue", [⟨"limit", .nat (2 ^ 64)⟩, ⟨"include-failed", .flag⟩,
      ⟨"max-attempts", .int 0 (2 ^ 32)⟩, ⟨"timeout-secs", .nat (2 ^ 64)⟩], [], []⟩,
    ⟨"snapshot", [⟨"document", int64⟩, ⟨"note", .text⟩, ⟨"user", .text⟩], [["document"]], []⟩,
    ⟨"restore", [⟨"version", int64⟩, ⟨"note", .text⟩, ⟨"user", .text⟩], [["version"]], []⟩,
    ⟨"versions", [⟨"document", int64⟩], [["document"]], []⟩]

/-- What was said for an option, or a text of its own. -/
def Given.text (g : Given) (name default : String) : String :=
  (g.get? name).getD default

/-- The integer that was said for an option. -/
def Given.int (g : Given) (name : String) : Int :=
  ((g.get? name).bind int?).getD 0

/-- The natural number that was said for an option. -/
def Given.nat? (g : Given) (name : String) : Option Nat :=
  (g.get? name).bind fun s => (int? s).map Int.toNat

/-- The choice of a pack that was made. -/
def Choice.ofGiven (g : Given) : Choice where
  pack := g.get? "pack"
  type := g.get? "doc-type"
  variant := g.get? "variant"
  shipment := g.get? "shipment"
  carton := g.get? "carton"
  payloads := g.text "payloads" ""
  user := g.get? "user"

/-- The command of a name with what was said for it. -/
def Command.ofGiven (name : String) (g : Given) : Command :=
  match name with
  | "import-catalog" => .importCatalog (g.text "catalog" "") (g.get? "user")
  | "generate" => .generate (.ofGiven g) (g.text "out-dir" ".")
  | "render-xlsx" => .renderXlsx (.ofGiven g) (g.text "out-dir" "") (g.has "bundle")
  | "process-queue" =>
    .processQueue (g.nat? "limit") ((g.nat? "max-attempts").map .ofNat) (g.nat? "timeout-secs")
      (g.has "include-failed")
  | "snapshot" => .snapshot (g.int "document") (g.text "note" "") (g.get? "user")
  | "restore" => .restore (g.int "version") (g.text "note" "") (g.get? "user")
  | _ => .versions (g.int "document")

/-- Reads a command line. -/
def Invocation.parse (arguments : List String) : Except UsageError Invocation := do
  let (c, g) ← program.parse arguments
  return ⟨g.text "config" "printpack.yaml", .ofGiven c.name g⟩

/-- The request for the chosen pack, or the type of document that no pack prints. -/
def Choice.request (c : Choice) : Except String Request := do
  let chosen ← match c.pack, c.type with
    | some code, _ => pure (Request.ofPack (Text.trim code))
    | none, some type =>
      match Route.ofType? type with
      | some route => pure route.request
      | none => throw type
    | none, none => throw ""
  return {
    pack := chosen.pack
    variant := c.variant <|> chosen.variant
    shipment := c.shipment
    carton := c.carton
    user := c.user }

end Waybill.Cli
