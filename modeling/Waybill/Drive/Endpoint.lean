/-
  The endpoints of the drive.

  * `Config.preflight` tells whether the drive can be asked at all;
  * `Config.tokenUrl` is where tokens are given out, `Config.driveUrl` a place of the drive;
  * `Config.contentUrl` is the content of the file at a path.
-/
import Waybill.Drive.Config
import Waybill.Drive.Http
import Waybill.Url.Reading

namespace Waybill.Drive

/-- The URL of a text, blanks around it dropped. -/
def readUrl (text : String) : Except DriveError Url :=
  (Url.ofText (Text.trim text)).mapError fun e => .invalidUrl text e.reason

/-- The URL of a text with segments added to its path. -/
def joinedUrl (base : String) (segments : List String) : Except DriveError Url := do
  match (← readUrl base).push? segments with
  | some u => return u
  | none => throw (.invalidUrl base "URL cannot be a base")

namespace Config

/-- Whether the settings suffice and both endpoints are secure. -/
def preflight (c : Config) : Except DriveError Unit := do
  c.check.mapError .configuration
  checkSecure (← readUrl c.authorityUrl)
  checkSecure (← readUrl c.graphUrl)

/-- Where tokens are given out. -/
def tokenUrl (c : Config) : Except DriveError Url :=
  joinedUrl c.authorityUrl [Text.trim c.tenant, "oauth2", "v2.0", "token"]

/-- A place of the drive. -/
def driveUrl (c : Config) (segments : List String) : Except DriveError Url :=
  joinedUrl c.graphUrl ("drives" :: Text.trim c.drive :: segments)

/-- The names on a path of the drive: what stands between its slashes, blanks apart. -/
def remoteNames (path : String) : List String :=
  ((Text.splitOn '/' path.toList).map fun piece => String.ofList (Text.trimmed piece)).filter
    fun name => !name.isEmpty

/-- The content of the file at a path of the drive. -/
def contentUrl (c : Config) (path : String) : Except DriveError Url :=
  let names := remoteNames path
  match names.getLast? with
  | none => .error (.invalidUrl path "empty remote path")
  | some last => c.driveUrl ("root:" :: names.dropLast ++ [last ++ ":", "content"])

end Config

end Waybill.Drive
