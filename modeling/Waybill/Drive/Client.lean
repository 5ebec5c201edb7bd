/-
  The client of the drive.

  A spreadsheet is converted by way of a file in the drive: it is stored there, asked for as a PDF
  file, and deleted again whatever came of that.

  * `Call` is what the client asks of its surroundings, `Session` a program of calls that keeps a
    token and may end with an error;
  * `accessToken` gives a token, the one that is kept if it is fresh;
  * `convert`, `upload` and `deleteItem` are what the client is for.
-/
import Waybill.Drive.Endpoint
import Waybill.Json.Parser
import Waybill.Json.Reading
import Waybill.Pdf.Error
import Waybill.Program
import Waybill.Sheet.Xlsx

namespace Waybill.Drive

/-! ## Calls -/

/-- What the client asks of its surroundings, with the type of the answer. -/
inductive Call : Type → Type 1 where
  /-- A request is sent. -/
  | send (r : Request) : Call (Except DriveError Reply)
  /-- The time of a clock that never goes back, in nanoseconds. -/
  | now : Call Nat
  /-- A name that nothing else has. -/
  | freshName : Call String
  /-- The program ends here, and nothing comes back. -/
  | crash : Call Empty

/-- A token with the time at which it expires, in nanoseconds. -/
structure Token where
  value : String
  expires : Nat
  deriving DecidableEq, Inhabited

/-- A program of calls; the token that is kept outlasts an error. -/
abbrev Session (ε α : Type) : Type 1 :=
  ExceptT ε (StateT (Option Token) (Program Call)) α

namespace Session

/-- One call. -/
def ask {ε α : Type} (call : Call α) : Session ε α :=
  ExceptT.lift (StateT.lift (Program.ask call))

/-- A session with its errors as causes of others. -/
def causing {ε δ α : Type} (cause : δ → ε) (s : Session δ α) : Session ε α :=
  ExceptT.adapt cause s

/-- How a session ends, which is no error of its own. -/
def outcome {ε δ α : Type} (s : Session δ α) : Session ε (Except δ α) :=
  ExceptT.lift s.run

end Session

/-! ## Requests -/

/-- Sends a request, unless its URL is not secure. -/
def send (r : Request) : Session DriveError Reply := do
  liftM (checkSecure r.url)
  liftM (← Session.ask (.send r))

/-- The structure that the body of a reply holds. -/
def partsOf (stage : Stage) (names : List String) (reply : Reply) : Except DriveError Json.Parts :=
  match (Json.ofBytes? reply.body).bind (Json.parts? names) with
  | some parts => .ok parts
  | none => .error (.invalidReply stage "no structure")

/-- A text of a structure that may be left out, but has to be one. -/
def textOf (stage : Stage) (parts : Json.Parts) (i : Nat) : Except DriveError (Option String) :=
  match parts.optional i Json.asText with
  | some text => .ok (text.filter fun s => !s.isEmpty)
  | none => .error (.invalidReply stage "no text")

/-- A text that has to be there. -/
def required (stage : Stage) (reason : String) : Option String → Except DriveError String
  | some text => .ok text
  | none => .error (.invalidReply stage reason)

/-! ## Tokens -/

/-- How long before its end a token is no longer used, in nanoseconds. -/
def skew : Nat := 60 * 10 ^ 9

/-- The first second that the clock cannot tell. -/
def clockEnd : Nat := 2 ^ 63

/-- A token and its lifetime in seconds, read from a reply. -/
def readToken (reply : Reply) : Except DriveError (String × Nat) := do
  let parts ← partsOf .token ["access_token", "expires_in"] reply
  let text ← textOf .token parts 0
  match parts.optional 1 (Json.asNatBelow (2 ^ 64)) with
  | none => throw (.invalidReply .token "no lifetime")
  | some lifetime => return (← required .token "missing access_token" text, lifetime.getD 0)

/-- Keeps a token for its lifetime, which must end before the clock does. -/
def keepToken (value : String) (lifetime : Nat) : Session DriveError Unit := do
  let now ← Session.ask .now
  if clockEnd ≤ now / 10 ^ 9 + lifetime then
    let never ← Session.ask .crash
    nomatch never
  else set (some (Token.mk value (now + lifetime * 10 ^ 9)))

/-- The kept token, if it is fresh. -/
def keptToken (c : Config) : Session DriveError (Option String) := do
  if !c.cacheToken then return none
  match (← get : Option Token) with
  | none => return none
  | some token =>
    let now ← Session.ask .now
    return if now + skew < token.expires then some token.value else none

/-- A new token. -/
def newToken (c : Config) (timeout : Nat) : Session DriveError String := do
  let url ← liftM c.tokenUrl
  let reply ← send { stage := .token, method := .post, url, timeout, form := [
    ("client_id", c.client),
    ("client_secret", c.secret),
    ("scope", c.scope),
    ("grant_type", "client_credentials")] }
  let (value, lifetime) ← liftM (do readToken (← reply.accepted .token))
  if c.cacheToken then keepToken value lifetime
  return value

/-- A token: the kept one if it is fresh, or else a new one. -/
def accessToken (c : Config) (timeout : Nat) : Session DriveError String := do
  match ← keptToken c with
  | some token => return token
  | none => newToken c timeout

/-! ## Files of the drive -/

/-- Stores a file at a path. -/
def putContent (c : Config) (token path : String) (bytes : ByteArray) (contentType : String)
    (timeout : Nat) : Session DriveError Reply := do
  let url ← liftM (c.contentUrl path)
  send { stage := .upload, method := .put, url, timeout, bearer := token, contentType, body := bytes }

/-- The number of the stored file, read from a reply. -/
def readItem (reply : Reply) : Except DriveError String := do
  let parts ← partsOf .upload ["id"] (← reply.accepted .upload)
  required .upload "missing item id" (← textOf .upload parts 0)

/-- A file of the drive as a PDF file. -/
def exportPdf (c : Config) (token item : String) (timeout : Nat) : Session DriveError ByteArray := do
  let url ← liftM (c.driveUrl ["items", item, "content"])
  let reply ← send
    { stage := .exporting, method := .get, url := url.addQuery "format" "pdf", timeout, bearer := token }
  return (← liftM (reply.accepted .exporting)).body

/-- Deletes a file of the drive, if that can be done. -/
def deleteItem {ε : Type} (c : Config) (token item : String) (timeout : Nat) : Session ε Unit := do
  let attempt : Session DriveError Reply := do
    let url ← liftM (c.driveUrl ["items", item])
    send { stage := .deletion, method := .delete, url, timeout, bearer := token }
  let _ ← attempt.outcome

/-! ## Converting and delivering -/

/-- Where a spreadsheet is stored while it is converted. -/
def tempPath (c : Config) (fresh name : String) : String :=
  String.ofList (Text.stripEnds '/' c.tempDir.toList) ++ "/" ++ fresh ++ "-" ++ name

/-- Stores a spreadsheet; gives the token and the number of the file. -/
def store (c : Config) (xlsx : ByteArray) (name : String) (timeout : Nat) :
    Session DriveError (String × String) := do
  liftM c.preflight
  let token ← accessToken c timeout
  let fresh ← Session.ask .freshName
  let reply ← putContent c token (tempPath c fresh name) xlsx Sheet.Xlsx.contentType timeout
  return (token, ← liftM (readItem reply))

/-- Converts a spreadsheet to a PDF file. -/
def convert (c : Config) (xlsx : ByteArray) (name : String) (timeout : Nat) :
    Session ConversionError ByteArray := do
  if xlsx.isEmpty then throw .emptyPayload
  let name := Text.trim name
  if name.isEmpty then throw .missingFilename
  let (token, item) ← (store c xlsx name timeout).causing .drive
  let exported ← (exportPdf c token item timeout).outcome
  deleteItem c token item timeout
  let pdf ← liftM (exported.mapError .drive : Except ConversionError ByteArray)
  if !Pdf.isPdf pdf then throw .notPdf
  return pdf

/-- The kind of content of PDF files. -/
def pdfContentType : String := "application/pdf"

/-- What the reply to an upload tells. -/
def delivered (reply : Reply) : Except DeliveryError Unit :=
  if reply.status = 200 || reply.status = 201 then .ok ()
  else
    match reply.accepted .upload with
    | .ok _ => .error (.unexpectedStatus reply.status)
    | .error e => .error (.drive e)

/-- Stores a PDF file at a path, over what is there. -/
def upload (c : Config) (path : String) (pdf : ByteArray) (timeout : Nat) :
    Session DeliveryError Unit := do
  let reply ← Session.causing .drive do
    liftM c.preflight
    let token ← accessToken c timeout
    putContent c token path pdf pdfContentType timeout
  liftM (delivered reply)

end Waybill.Drive
