/-
  Requests to the drive and replies to them.

  * `Request` is one request; `Request.shown` shows it without its token, the values of its form and
    its body;
  * `Reply` is a status and a body; `Reply.accepted` is the reply when its status tells of success.
-/
import Waybill.Drive.Error
import Waybill.Text.Quoted
import Waybill.Text.Utf8
import Waybill.Url.Basic

namespace Waybill.Drive

/-! ## Requests -/

/-- What a request does. -/
inductive Method where
  | get
  | post
  | put
  | delete
  deriving DecidableEq, Inhabited

/-- The name of a method. -/
def Method.name : Method → String
  | .get => "Get"
  | .post => "Post"
  | .put => "Put"
  | .delete => "Delete"

/-- One request; the time it may take is in milliseconds. -/
structure Request where
  stage : Stage
  method : Method
  url : Url
  timeout : Nat
  bearer : Option String := none
  contentType : Option String := none
  form : List (String × String) := []
  body : ByteArray := .empty

namespace Request

/-- The first value of a name in the form. -/
def formValue? (r : Request) (name : String) : Option String :=
  r.form.lookup name

/-- A span of milliseconds, with the largest unit that leaves a whole number before the point. -/
def shownSpan (ms : Nat) : String :=
  if ms = 0 then "0ns"
  else if ms < 1000 then toString ms ++ "ms"
  else
    let rest := ms % 1000
    let digits := (toString (1000 + rest)).toList.drop 1
    let kept := (digits.reverse.dropWhile (· = '0')).reverse
    toString (ms / 1000) ++ (if kept.isEmpty then "" else "." ++ String.ofList kept) ++ "s"

/-- A request shown: of the secret parts it tells only that they are there, and how long. -/
def shown (r : Request) : String :=
  Text.fields "HttpRequest" [
    ("stage", Text.quoted r.stage.name),
    ("method", r.method.name),
    ("url", Text.quoted r.url.text),
    ("bearer", Text.shownOption (r.bearer.map fun _ => "\"<redacted>\"")),
    ("content_type", Text.shownOption (r.contentType.map Text.quoted)),
    ("form_keys", Text.shownList (r.form.map fun p => Text.quoted p.1)),
    ("body_len", toString r.body.size),
    ("timeout", shownSpan r.timeout)]

end Request

/-! ## Replies -/

/-- A reply: its status and its body. -/
structure Reply where
  status : Nat
  body : ByteArray
  deriving DecidableEq, Inhabited

namespace Reply

/-- Whether the status tells of success. -/
def isSuccess (r : Reply) : Bool :=
  200 ≤ r.status && r.status < 300

/-- The body as text. -/
def text (r : Reply) : String := Text.decodeLossy r.body

/-- The reply, or the error for a status that does not tell of success. -/
def accepted (stage : Stage) (r : Reply) : Except DriveError Reply :=
  if r.isSuccess then .ok r else .error (.http stage r.status r.text)

end Reply

/-! ## Endpoints -/

/-- Refuses a URL of another protocol than the secure one. -/
def checkSecure (u : Url) : Except DriveError Unit :=
  if u.scheme = "https" then .ok () else .error (.insecure u.text)

end Waybill.Drive
