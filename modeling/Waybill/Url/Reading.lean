/-
  Reading URLs.

  Blanks and controls around the text and tabs and line ends in it are dropped.  A special URL has
  an authority however many slashes there are, and a backslash counts as a slash in it.

  * `Url.ofText` reads a URL.
-/
import Waybill.Url.Basic

namespace Waybill.Url

/-! ## Pieces -/

/-- Whether a character ends the authority. -/
def endsAuthority (special : Bool) (c : Char) : Bool :=
  c = '/' || c = '?' || c = '#' || (special && c = '\\')

/-- Whether a character ends the path. -/
def endsPath (c : Char) : Bool :=
  c = '?' || c = '#'

/-- The segments of a path, each with whether no slash follows it. -/
def pathPieces (special : Bool) : List Char → List (List Char × Bool)
  | [] => [([], true)]
  | c :: cs =>
    if c = '/' || (special && c = '\\') then ([], false) :: pathPieces special cs
    else
      match pathPieces special cs with
      | [] => [([c], true)]
      | (piece, last) :: pieces => (c :: piece, last) :: pieces

/-- The segments of a text after its first slash. -/
def segmentsOf (scheme : String) (cs : List Char) : List String :=
  let file := scheme = "file"
  let pieces := pathPieces (isSpecial scheme) cs
  settled file (pieces.foldl
    (fun path piece => entered file path (Percent.encode Percent.inPath piece.1) piece.2) [])

/-- The URL with its query and fragment. -/
def withRest (scheme : String) (authority : Option Authority) (path : Path) (cs : List Char) : Url :=
  let fragmentOf := fun cs => String.ofList (Percent.encode Percent.inFragment cs)
  match cs with
  | '?' :: cs =>
    let query := Percent.encode (Percent.inQuery (isSpecial scheme)) (cs.takeWhile (· ≠ '#'))
    let fragment := match cs.dropWhile (· ≠ '#') with
      | _ :: cs => some (fragmentOf cs)
      | [] => none
    ⟨scheme, authority, path, some (String.ofList query), fragment⟩
  | '#' :: cs => ⟨scheme, authority, path, none, some (fragmentOf cs)⟩
  | _ => ⟨scheme, authority, path, none, none⟩

/-- The URL with a path of segments, which start after a slash that may be left out. -/
def withPath (scheme : String) (authority : Option Authority) (cs : List Char) : Url :=
  let path := cs.takeWhile fun c => !endsPath c
  let rest := cs.dropWhile fun c => !endsPath c
  let special := isSpecial scheme
  let list := match path with
    | [] => if special then [""] else []
    | c :: inner =>
      segmentsOf scheme (if c = '/' || (special && c = '\\') then inner else path)
  withRest scheme authority (.segments list) rest

/-! ## Authorities -/

/-- The user's name and password before a host. -/
def userOf (cs : List Char) : String × String :=
  let written := fun cs => String.ofList (Percent.encode Percent.inUser cs)
  (written (cs.takeWhile (· ≠ ':')), written ((cs.dropWhile (· ≠ ':')).drop 1))

/-- The text before the last mark and the one after it, if there is a mark. -/
def cutAtLast? (mark : Char) (cs : List Char) : Option (List Char × List Char) :=
  if cs.contains mark then
    let after := (cs.reverse.takeWhile (· ≠ mark)).reverse
    some (cs.take (cs.length - after.length - 1), after)
  else none

/-- The host at the front of a text, which ends at a colon outside of brackets. -/
def hostPart (inside : Bool) : List Char → List Char × List Char
  | [] => ([], [])
  | c :: cs =>
    if c = ':' && !inside then ([], c :: cs)
    else
      let inside := if c = '[' then true else if c = ']' then false else inside
      let (host, rest) := hostPart inside cs
      (c :: host, rest)

/-- The port after a colon; the scheme's own is not written. -/
def portOf (scheme : String) (cs : List Char) : Except UrlError (Option Nat) :=
  match cs with
  | ':' :: ds =>
    if !ds.all Char.isDigit then .error .badPort
    else
      let n := ds.foldl (fun n d => n * 10 + (d.toNat - 48)) 0
      if 65535 < n then .error .badPort
      else if ds.isEmpty || defaultPort? scheme == some n then .ok none
      else .ok (some n)
  | _ => .ok none

/-- The authority of a text, which has no slash in it; `more` tells whether anything follows.  Only a
    URL that is not special may leave out the host, and then the rest of the authority too. -/
def authorityOf (scheme : String) (cs : List Char) (more : Bool) : Except UrlError Authority := do
  let special := isSpecial scheme
  let marked := cutAtLast? '@' cs
  let (who, cs) := marked.getD ([], cs)
  let (user, password) := userOf who
  let bare := user.isEmpty && password.isEmpty && !(marked.isSome && more)
  let (host, rest) := hostPart false cs
  if host.isEmpty && (special || !rest.isEmpty || !bare) then throw .emptyHost
  let host ← if special then Host.ofText host else Host.ofPlain host
  return ⟨user, password, host, ← portOf scheme rest⟩

/-- The URL after the slashes before its authority. -/
def withAuthority (scheme : String) (cs : List Char) : Except UrlError Url := do
  let ends := endsAuthority (isSpecial scheme)
  let part := cs.takeWhile fun c => !ends c
  let rest := cs.dropWhile fun c => !ends c
  let authority ← authorityOf scheme part (!rest.isEmpty)
  return withPath scheme (some authority) rest

/-! ## Files -/

/-- The authority of a file on this machine. -/
def localHost : Authority := ⟨"", "", .name "", none⟩

/-- The URL of a file after its scheme. -/
def fileOf (cs : List Char) : Except UrlError Url :=
  let isSlash := fun c => c = '/' || c = '\\'
  match cs with
  | a :: b :: inner =>
    if isSlash a && isSlash b then
      let ends := endsAuthority true
      let part := inner.takeWhile fun c => !ends c
      let rest := inner.dropWhile fun c => !ends c
      if isDrive part then .ok (withPath "file" (some localHost) ('/' :: inner))
      else if part.isEmpty then .ok (withPath "file" (some localHost) rest)
      else do
        let host ← Host.ofText part
        let host := if host = .name "localhost" then .name "" else host
        return withPath "file" (some { localHost with host }) rest
    else .ok (withPath "file" (some localHost) cs)
  | _ => .ok (withPath "file" (some localHost) cs)

/-! ## URLs -/

/-- The scheme of a text, in lower case, and what follows its colon. -/
def scheme? (cs : List Char) : Option (String × List Char) :=
  let isMark := fun (c : Char) => c.isAlphanum || c = '+' || c = '-' || c = '.'
  let name := cs.takeWhile isMark
  match cs.dropWhile isMark with
  | ':' :: rest =>
    if (name.head?).any Char.isAlpha then some (String.ofList (name.map Char.toLower), rest) else none
  | _ => none

/-- Whether a character is dropped from the ends of a text. -/
def isMargin (c : Char) : Bool := c.toNat ≤ 0x20

/-- The URL of a text. -/
def ofText (text : String) : Except UrlError Url :=
  let cs := ((text.toList.dropWhile isMargin).reverse.dropWhile isMargin).reverse
  match scheme? (cs.filter fun c => !isDropped c) with
  | none => .error .relative
  | some (scheme, rest) =>
    if scheme = "file" then fileOf rest
    else if isSpecial scheme then
      withAuthority scheme (rest.dropWhile fun c => c = '/' || c = '\\')
    else
      match rest with
      | '/' :: '/' :: inner => withAuthority scheme inner
      | '/' :: _ => .ok (withPath scheme none rest)
      | _ =>
        let path := rest.takeWhile fun c => !endsPath c
        let rest := rest.dropWhile fun c => !endsPath c
        let written := String.ofList (Percent.encode Percent.isControl path)
        .ok (withRest scheme none (.plain written) rest)

end Waybill.Url
