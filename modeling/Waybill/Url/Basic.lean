/-
  URLs.

  * `Url` is a URL: its scheme, an authority, a path, a query and a fragment; `Url.text` writes it;
  * `Path` is a list of segments, or one text for a URL that cannot be a base;
  * `Url.push` adds segments to a path and `Url.addQuery` a pair to a query.
-/
import Waybill.Url.Host

namespace Waybill.Url

/-! ## Parts -/

/-- Who is asked, and where. -/
structure Authority where
  user : String
  password : String
  host : Host
  port : Option Nat
  deriving DecidableEq, Inhabited

/-- What is asked for. -/
inductive Path where
  | segments (list : List String)
  | plain (text : String)
  deriving DecidableEq, Inhabited

end Waybill.Url

namespace Waybill

open Waybill.Url

/-- A URL. -/
structure Url where
  scheme : String
  authority : Option Authority
  path : Path
  query : Option String
  fragment : Option String
  deriving DecidableEq, Inhabited

namespace Url

/-- The port of a scheme that has one of its own. -/
def defaultPort? (scheme : String) : Option Nat :=
  match scheme with
  | "http" | "ws" => some 80
  | "https" | "wss" => some 443
  | "ftp" => some 21
  | _ => none

/-- Whether a scheme is a special one. -/
def isSpecial (scheme : String) : Bool :=
  scheme = "file" || (defaultPort? scheme).isSome

/-! ## Writing -/

/-- The text of an authority. -/
def Authority.text (a : Authority) : String :=
  let password := if a.password.isEmpty then "" else ":" ++ a.password
  let who := a.user ++ password
  let port := match a.port with
    | some n => ":" ++ toString n
    | none => ""
  (if who.isEmpty then "" else who ++ "@") ++ a.host.text ++ port

/-- The text of a path; each segment has a slash before it. -/
def Path.text : Path → String
  | .segments list => String.join (list.map ("/" ++ ·))
  | .plain text => text

/-- The text before a path that keeps it from looking like an authority. -/
def guardText (u : Url) : String :=
  match u.authority, u.path with
  | none, .segments ("" :: _ :: _) => "/."
  | _, _ => ""

/-- The text of a URL. -/
def text (u : Url) : String :=
  u.scheme ++ ":" ++ (u.authority.map fun a => "//" ++ a.text).getD "" ++ u.guardText ++
    u.path.text ++ (u.query.map ("?" ++ ·)).getD "" ++ (u.fragment.map ("#" ++ ·)).getD ""

/-! ## Segments -/

/-- Whether a letter and a colon or a bar name a drive. -/
def isDrive (segment : List Char) : Bool :=
  match segment with
  | [letter, mark] => letter.isAlpha && (mark = ':' || mark = '|')
  | _ => false

/-- The path without its last segment; the drive of a file stays. -/
def shortened (file : Bool) (path : List String) : List String :=
  match path with
  | [drive] => if file && isDrive drive.toList && drive.endsWith ":" then [drive] else []
  | path => path.dropLast

/-- The segment at the end of a path; the drive of a file is written with a colon. -/
def appended (file : Bool) (path : List String) (segment : List Char) : List String :=
  if file && path.isEmpty && isDrive segment then
    [String.ofList (segment.take 1 ++ [':'])]
  else path ++ [String.ofList segment]

/-- Whether a segment stands for the place itself. -/
def isHere (segment : List Char) : Bool :=
  [".", "%2e"].contains (String.ofList (segment.map Char.toLower))

/-- Whether a segment stands for the place above. -/
def isAbove (segment : List Char) : Bool :=
  ["..", "%2e.", ".%2e", "%2e%2e"].contains (String.ofList (segment.map Char.toLower))

/-- The path with one more segment; `last` tells whether no slash follows it. -/
def entered (file : Bool) (path : List String) (segment : List Char) (last : Bool) : List String :=
  if isAbove segment then shortened file path ++ (if last then [""] else [])
  else if isHere segment then path ++ (if last then [""] else [])
  else appended file path segment

/-- The path of a file starts with a name, unless it has none. -/
def settled (file : Bool) (path : List String) : List String :=
  if file then
    match path.dropWhile String.isEmpty with
    | [] => [""]
    | path => path
  else path

/-- Tabs and line ends, which a URL drops wherever they stand. -/
def isDropped (c : Char) : Bool :=
  c = '\t' || c = '\n' || c = '\r'

/-- The path with a segment of any text added; the segments for the place itself and the place above
    are passed over, and an only segment that is empty makes room. -/
def pushOne (scheme : String) (path : List String) (segment : String) : List String :=
  if segment = "." || segment = ".." then path
  else
    let path := if path = [""] then [] else path
    let file := scheme = "file"
    let written := Percent.encode (Percent.inSegment (isSpecial scheme))
      (segment.toList.filter fun c => !isDropped c)
    settled file (entered file path written true)

/-- The path without an empty segment at its end, unless that is all. -/
def withoutEmptyEnd (path : List String) : List String :=
  if 1 < path.length && path.getLast? == some "" then path.dropLast else path

/-- The URL with segments added to its path; `none` when it cannot be a base. -/
def push? (u : Url) (segments : List String) : Option Url :=
  match u.path with
  | .plain _ => none
  | .segments path =>
    if u.authority.isNone && path.isEmpty then none
    else some { u with
      path := .segments (segments.foldl (pushOne u.scheme) (withoutEmptyEnd path)) }

/-- The URL with a pair added to its query. -/
def addQuery (u : Url) (name value : String) : Url :=
  let pair := String.ofList
    (Percent.encodeForm name.toList ++ '=' :: Percent.encodeForm value.toList)
  { u with query := match u.query with
    | none | some "" => some pair
    | some query => some (query ++ "&" ++ pair) }

end Url

end Waybill
