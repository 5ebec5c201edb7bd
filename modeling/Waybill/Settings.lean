/-
  The settings of the program.

  Every part may be left out of the file, and so may every setting.  Credentials of the drive are
  taken from the environment where it has them.

  * `Settings` are all of them; `Settings.ofNode?` reads them;
  * `Settings.withEnvironment` takes what the environment says;
  * `Settings.load` does both for a file.
-/
import Waybill.Drive.Config
import Waybill.Text.Utf8

namespace Waybill

open Waybill.Yaml Waybill.Drive

/-- The settings of generation; the time for a conversion is in seconds. -/
structure EngineSettings where
  templateDirs : List String
  conversionTimeout : Nat
  fallback : Bool
  deriving DecidableEq, Inhabited

namespace EngineSettings

/-- The settings as a value. -/
def toJson (s : EngineSettings) : Json :=
  .record [
    ("template_dirs", .list (s.templateDirs.map .text)),
    ("conversion_timeout_secs", .int s.conversionTimeout),
    ("xlsx_fallback", .bool s.fallback)]

/-- The settings of a node. -/
def ofNode? (n : Node) : Option EngineSettings := do
  let parts ← n.parts? ["template_dirs", "conversion_timeout_secs", "xlsx_fallback"]
  return {
    templateDirs := ← parts.withDefault 0 [] (Node.asList Node.asText)
    conversionTimeout := ← parts.withDefault 1 60 (Node.asNatBelow (2 ^ 64))
    fallback := ← parts.withDefault 2 false Node.asBool }

/-- How long each request of a conversion may take, in seconds: at least one. -/
def timeout (s : EngineSettings) : Nat := max s.conversionTimeout 1

end EngineSettings

/-- The settings of the queue; the time for an upload is in seconds. -/
structure SyncSettings where
  workDir : String
  limit : Nat
  maxAttempts : UInt32
  timeout : Nat
  deriving DecidableEq, Inhabited

/-- The settings as a value. -/
def SyncSettings.toJson (s : SyncSettings) : Json :=
  .record [
    ("work_dir", .text s.workDir),
    ("limit", .int s.limit),
    ("max_attempts", .int s.maxAttempts.toNat),
    ("timeout_secs", .int s.timeout)]

/-- The settings of a node. -/
def SyncSettings.ofNode? (n : Node) : Option SyncSettings := do
  let parts ← n.parts? ["work_dir", "limit", "max_attempts", "timeout_secs"]
  return {
    workDir := ← parts.withDefault 0 "print_pack_sync" Node.asText
    limit := ← parts.withDefault 1 20 (Node.asNatBelow (2 ^ 64))
    maxAttempts := .ofNat (← parts.withDefault 2 5 (Node.asNatBelow (2 ^ 32)))
    timeout := ← parts.withDefault 3 30 (Node.asNatBelow (2 ^ 64)) }

/-- All settings. -/
structure Settings where
  databasePath : String
  engine : EngineSettings
  drive : Config
  sync : SyncSettings
  deriving DecidableEq, Inhabited

/-- Why there are no settings. -/
inductive SettingsError where
  | unreadable (path : String)
  | malformed (path : String)
  deriving DecidableEq, Inhabited

/-- The text of an error. -/
def SettingsError.message : SettingsError → String
  | .unreadable path => "Failed to read config file " ++ Text.quotedPath path
  | .malformed path => "Failed to parse config YAML " ++ Text.quotedPath path

namespace Settings

/-- The settings of a node; a part that is left out is as one with nothing in it. -/
def ofNode? (n : Node) : Option Settings := do
  let parts ← n.parts? ["database_path", "engine", "graph", "sync"]
  let part {α : Type} (i : Nat) (read : Node → Option α) := read ((parts.at? i).getD .nothing)
  return {
    databasePath := ← parts.withDefault 0 "printpack.sqlite3" Node.asText
    engine := ← part 1 EngineSettings.ofNode?
    drive := ← part 2 Config.ofNode?
    sync := ← part 3 SyncSettings.ofNode? }

/-- What the environment says under a name, unless it is blank. -/
def fromEnvironment (environment : String → Option String) (name value : String) : String :=
  (((environment name).map Text.trim).filter fun said => !said.isEmpty).getD value

/-- The names under which the environment may have credentials. -/
def credentials : List String :=
  ["GRAPH_TENANT_ID", "GRAPH_CLIENT_ID", "GRAPH_CLIENT_SECRET", "GRAPH_DRIVE_ID"]

/-- The settings with the credentials that the environment has. -/
def withEnvironment (environment : String → Option String) (s : Settings) : Settings :=
  let said := fromEnvironment environment
  { s with drive := { s.drive with
      tenant := said "GRAPH_TENANT_ID" s.drive.tenant
      client := said "GRAPH_CLIENT_ID" s.drive.client
      secret := said "GRAPH_CLIENT_SECRET" s.drive.secret
      drive := said "GRAPH_DRIVE_ID" s.drive.drive } }

/-- The settings of a file. -/
def load (read : String → Option ByteArray) (environment : String → Option String) (path : String) :
    Except SettingsError Settings :=
  match (read path).bind Text.decode? with
  | none => .error (.unreadable path)
  | some text =>
    match Yaml.ofText? ofNode? text with
    | none => .error (.malformed path)
    | some settings => .ok (settings.withEnvironment environment)

end Settings

end Waybill
