/-
  The settings of the remote drive.

  * `Config` holds credentials, the drive and its endpoints; `Config.standard` has the defaults;
  * `Config.check` tells what is missing;
  * `Config.shown` and `Config.toJson` show the settings without the secret;
  * `Config.ofNode?` reads them.
-/
import Waybill.Drive.Error
import Waybill.Text.Blank
import Waybill.Text.Quoted
import Waybill.Yaml.Reading

namespace Waybill.Drive

open Waybill.Yaml

/-- The settings of the drive. -/
structure Config where
  tenant : String
  client : String
  secret : String
  drive : String
  authorityUrl : String
  graphUrl : String
  scope : String
  /-- The folder of the drive for spreadsheets that are being converted. -/
  tempDir : String
  /-- Whether a token is used again until shortly before it expires. -/
  cacheToken : Bool
  deriving DecidableEq, Inhabited

/-- The address of a host over the secure protocol. -/
def secure (host : String) : String := "https:" ++ "//" ++ host

namespace Config

/-- The settings when nothing is said. -/
def standard : Config where
  tenant := ""
  client := ""
  secret := ""
  drive := ""
  authorityUrl := secure "login.microsoftonline.com"
  graphUrl := secure "graph.microsoft.com/v1.0"
  scope := secure "graph.microsoft.com/.default"
  tempDir := "tmp/print_pack"
  cacheToken := false

/-! ## What is missing -/

/-- The names of the credentials that are blank. -/
def missing (c : Config) : List String :=
  ([("tenant_id", c.tenant), ("client_id", c.client), ("client_secret", c.secret)].filter
    fun p => Text.isBlankText p.2).map (·.1)

/-- Whether the settings suffice: the credentials count before the drive. -/
def check (c : Config) : Except ConfigError Unit :=
  if !c.missing.isEmpty then .error (.missingCredentials c.missing)
  else if Text.isBlankText c.drive then .error .missingDrive
  else .ok ()

/-! ## Showing -/

/-- What stands in the place of a secret. -/
def redacted : String := "\"<redacted>\""

/-- The settings shown; the secret is not. -/
def shown (c : Config) : String :=
  Text.fields "GraphConfig" [
    ("tenant_id", Text.quoted c.tenant),
    ("client_id", Text.quoted c.client),
    ("client_secret", redacted),
    ("drive_id", Text.quoted c.drive),
    ("authority_url", Text.quoted c.authorityUrl),
    ("graph_url", Text.quoted c.graphUrl),
    ("scope", Text.quoted c.scope),
    ("temp_dir", Text.quoted c.tempDir),
    ("cache_token", toString c.cacheToken)]

/-- The settings as a value, without the secret. -/
def toJson (c : Config) : Json :=
  .record [
    ("tenant_id", .text c.tenant),
    ("client_id", .text c.client),
    ("drive_id", .text c.drive),
    ("authority_url", .text c.authorityUrl),
    ("graph_url", .text c.graphUrl),
    ("scope", .text c.scope),
    ("temp_dir", .text c.tempDir),
    ("cache_token", .bool c.cacheToken)]

/-! ## Reading -/

/-- The settings of a node; what is left out is as in `standard`. -/
def ofNode? (n : Node) : Option Config := do
  let parts ← n.parts? ["tenant_id", "client_id", "client_secret", "drive_id", "authority_url",
    "graph_url", "scope", "temp_dir", "cache_token"]
  return {
    tenant := ← parts.withDefault 0 standard.tenant Node.asText
    client := ← parts.withDefault 1 standard.client Node.asText
    secret := ← parts.withDefault 2 standard.secret Node.asText
    drive := ← parts.withDefault 3 standard.drive Node.asText
    authorityUrl := ← parts.withDefault 4 standard.authorityUrl Node.asText
    graphUrl := ← parts.withDefault 5 standard.graphUrl Node.asText
    scope := ← parts.withDefault 6 standard.scope Node.asText
    tempDir := ← parts.withDefault 7 standard.tempDir Node.asText
    cacheToken := ← parts.withDefault 8 standard.cacheToken Node.asBool }

end Config

end Waybill.Drive
