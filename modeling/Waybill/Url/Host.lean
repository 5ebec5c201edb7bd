/-
  Hosts: names and addresses.

  * `UrlError` is why a text is no URL, `UrlError.reason` says so;
  * `Host` is a name, or an address of four or of sixteen bytes; `Host.text` writes it;
  * `Host.ofText` reads the host of a special URL, whose name is a domain, and `Host.ofPlain` that
    of any other.

  A domain may hold letters beyond ASCII, of the scripts in `letters`: each of them is one letter in
  upper and in lower case, and none stands for others or goes together with the one before it.  A
  domain with any other character is refused, also where that character could be mapped to some that
  a domain may hold.
-/
import Waybill.Text.Split
import Waybill.Text.Upper
import Waybill.Text.Utf8
import Waybill.Url.Percent
import Waybill.Url.Punycode

namespace Waybill.Url

/-- Why a text is no URL. -/
inductive UrlError where
  | relative
  | emptyHost
  | badDomain
  | badCharacter
  | badPort
  | badAddress4
  | badAddress6
  deriving DecidableEq, Inhabited

/-- What the error says. -/
def UrlError.reason : UrlError → String
  | .relative => "relative URL without a base"
  | .emptyHost => "empty host"
  | .badDomain => "invalid international domain name"
  | .badCharacter => "invalid domain character"
  | .badPort => "invalid port number"
  | .badAddress4 => "invalid IPv4 address"
  | .badAddress6 => "invalid IPv6 address"

/-- A host. -/
inductive Host where
  | name (text : String)
  | address4 (n : Nat)
  | address6 (pieces : List Nat)
  deriving DecidableEq, Inhabited

/-! ## Writing -/

/-- The longest run of zeros in a list of pieces, the first of equal ones: where it starts and how
    long it is. -/
def longestZeros (pieces : List Nat) : Nat × Nat :=
  let runs := (List.range pieces.length).map fun i =>
    (i, ((pieces.drop i).takeWhile (· == 0)).length)
  runs.foldl (fun best run => if best.2 < run.2 then run else best) (0, 0)

/-- Pieces in hexadecimal between colons. -/
def shownPieces (pieces : List Nat) : String :=
  ":".intercalate (pieces.map fun n => String.ofList (Nat.toDigits 16 n))

/-- The text of a host; a run of two or more zeros in an address is left out once. -/
def Host.text : Host → String
  | .name text => text
  | .address4 n =>
    ".".intercalate ([n / 2 ^ 24, n / 2 ^ 16 % 256, n / 2 ^ 8 % 256, n % 256].map toString)
  | .address6 pieces =>
    let (start, length) := longestZeros pieces
    if length < 2 then "[" ++ shownPieces pieces ++ "]"
    else
      "[" ++ shownPieces (pieces.take start) ++ "::" ++
        shownPieces (pieces.drop (start + length)) ++ "]"

/-! ## Addresses of four bytes -/

/-- The number of a part of an address: `none` for no number, and for one of too many bits the
    number nothing. -/
def addressPart? (cs : List Char) : Option (Option Nat) :=
  let (base, ds) : Nat × List Char := match cs with
    | '0' :: 'x' :: ds => (16, ds)
    | '0' :: 'X' :: ds => (16, ds)
    | '0' :: d :: ds => (8, d :: ds)
    | ds => (10, ds)
  if cs.isEmpty then none
  else if ds.isEmpty then some (some 0)
  else do
    let n ← ds.foldlM (fun n d => do
      let v ← Json.hexDigit? d
      if v < base then some (n * base + v) else none) 0
    return if n < 2 ^ 32 then some n else none

/-- The parts of a domain, without an empty one at its end. -/
def domainParts (domain : List Char) : List (List Char) :=
  let parts := Text.splitOn '.' domain
  if parts.getLast? == some [] then parts.dropLast else parts

/-- Whether a domain has to be an address, for its last part is a number. -/
def endsInNumber (domain : List Char) : Bool :=
  match (domainParts domain).getLast? with
  | none => false
  | some last => (!last.isEmpty && last.all Char.isDigit) || (addressPart? last).isSome

/-- The address of parts: all but the last have a byte each, the last has what is left. -/
def address4? (domain : List Char) : Option Nat := do
  let parts := domainParts domain
  if 4 < parts.length then none
  let numbers ← parts.mapM fun part => (addressPart? part).join
  let last ← numbers.getLast?
  let front := numbers.dropLast
  if last < 256 ^ (4 - front.length) && front.all (· < 256) then
    return (front.zipIdx.map fun (n, i) => n * 256 ^ (3 - i)).foldl (· + ·) last
  else none

/-! ## Addresses of sixteen bytes -/

/-- A piece of an address: one to four hexadecimal digits. -/
def piece? (cs : List Char) : Option Nat :=
  if cs.isEmpty || 4 < cs.length then none
  else cs.foldlM (fun n d => (Json.hexDigit? d).map (n * 16 + ·)) 0

/-- A byte in decimal digits, without a leading zero. -/
def byte? (cs : List Char) : Option Nat :=
  match cs with
  | '0' :: _ :: _ => none
  | _ =>
    if cs.isEmpty || 3 < cs.length || !cs.all Char.isDigit then none
    else
      let n := cs.foldl (fun n d => n * 10 + (d.toNat - 48)) 0
      if n < 256 then some n else none

/-- The pieces between colons; the last may be four bytes between points, which are two pieces. -/
def pieces? (cs : List Char) : Option (List Nat) := do
  if cs.isEmpty then return []
  let parts := Text.splitOn ':' cs
  let last ← parts.getLast?
  if last.contains '.' then
    let bytes ← (Text.splitOn '.' last).mapM byte?
    match bytes with
    | [a, b, c, d] => return (← parts.dropLast.mapM piece?) ++ [a * 256 + b, c * 256 + d]
    | _ => none
  else parts.mapM piece?

/-- The address of a text: eight pieces, of which a run may be left out. -/
def address6? (cs : List Char) : Option (List Nat) :=
  match Text.cutAt? [':', ':'] cs with
  | none => (pieces? cs).filter fun pieces => pieces.length = 8
  | some (before, after) => do
    if before.contains '.' then none
    let front ← pieces? before
    let back ← pieces? after
    if 8 ≤ front.length + back.length then none
    return front ++ List.replicate (8 - front.length - back.length) 0 ++ back

/-- The address between square brackets. -/
def bracketed (cs : List Char) : Except UrlError Host :=
  match cs.reverse with
  | ']' :: inner =>
    match address6? inner.reverse with
    | some pieces => .ok (.address6 pieces)
    | none => .error .badAddress6
  | _ => .error .badAddress6

/-! ## Domains -/

/-- The lower case of a character, where it has one. -/
def lowerChar (c : Char) : Char :=
  if c.toNat < 0x80 then c.toLower
  else
    let fits := fun (run : Nat × Nat × Nat × Int) =>
      let n := Int.ofNat c.toNat - run.2.2.2
      (Int.ofNat run.1 ≤ n && n ≤ Int.ofNat run.2.1) && (n - run.1) % run.2.2.1 == 0
    let wide := Text.simpleUpper.find? fun run => run.1 ≠ run.2.1 && fits run
    match wide.or (Text.simpleUpper.find? fits) with
    | some run => Char.ofNat (Int.ofNat c.toNat - run.2.2.2).toNat
    | none => c

/-- Characters of a domain that count for nothing. -/
def isIgnored (c : Char) : Bool :=
  ['\u00AD', '\u200B', '\u2060', '\uFEFF', '\u034F', '\u180B', '\u180C', '\u180D'].contains c ||
    ('\uFE00' ≤ c && c ≤ '\uFE0F')

/-- Letters beyond ASCII that a domain may hold, as runs: Latin, Greek and Cyrillic ones in lower
    case, Japanese, Chinese and Korean ones. -/
def letters : List (Nat × Nat) :=
  [(0xDF, 0xF6), (0xF8, 0x12F), (0x131, 0x131), (0x134, 0x13E), (0x141, 0x148), (0x14A, 0x17E),
    (0x1CD, 0x1EF), (0x1F8, 0x21F), (0x222, 0x233), (0x390, 0x390), (0x3AC, 0x3CE), (0x430, 0x481),
    (0x48B, 0x4BF), (0x4C1, 0x4CE), (0x4D0, 0x52F), (0x3041, 0x3096), (0x30A1, 0x30FA),
    (0x30FC, 0x30FE), (0x4E00, 0x9FA5), (0xAC00, 0xD7A3)]

/-- Characters that a domain may hold. -/
def isAllowed (c : Char) : Bool :=
  let n := c.toNat
  if n < 0x80 then 0x20 < n && n < 0x7F && !"%#/:<>?@[\\]^|".contains c
  else letters.any fun run => run.1 ≤ n && n ≤ run.2

/-- A character as a domain has it: in lower case, wide forms narrow, and every full stop a point. -/
def domainChar (c : Char) : List Char :=
  if isIgnored c then []
  else if ['\u3002', '\uFF0E', '\uFF61'].contains c then ['.']
  else if '\uFF01' ≤ c && c ≤ '\uFF5E' then [(Char.ofNat (c.toNat - 0xFEE0)).toLower]
  else [lowerChar c]

/-- A label in ASCII. -/
def label? (cs : List Char) : Option (List Char) :=
  let narrow := fun (cs : List Char) => cs.all fun c => c.toNat < 0x80
  match cs with
  | 'x' :: 'n' :: '-' :: '-' :: code => do
    if !narrow code then none
    let meant ← Punycode.decode? code
    if !narrow meant && meant.flatMap domainChar == meant && meant.all isAllowed &&
        Punycode.encode meant == code then
      return cs
    else none
  | _ => if narrow cs then some cs else some (['x', 'n', '-', '-'] ++ Punycode.encode cs)

/-- A domain in ASCII. -/
def domain? (s : String) : Option (List Char) := do
  let cs := s.toList.flatMap domainChar
  if !cs.all isAllowed then none
  let labels ← (Text.splitOn '.' cs).mapM label?
  return List.intercalate ['.'] labels

/-! ## Reading -/

/-- The host of a special URL. -/
def Host.ofText (cs : List Char) : Except UrlError Host :=
  match cs with
  | '[' :: inner => bracketed inner
  | _ =>
    match (Text.decode? ⟨(Percent.decode cs).toArray⟩).bind domain? with
    | none => .error .badDomain
    | some domain =>
      if domain.isEmpty then .error .emptyHost
      else if endsInNumber domain then
        match address4? domain with
        | some n => .ok (.address4 n)
        | none => .error .badAddress4
      else .ok (.name (String.ofList domain))

/-- Characters that no host may hold. -/
def isSeparator (c : Char) : Bool :=
  c = '\x00' || "\t\n\r #/:<>?@[\\]^|".contains c

/-- The host of a URL that is not special. -/
def Host.ofPlain (cs : List Char) : Except UrlError Host :=
  match cs with
  | '[' :: inner => bracketed inner
  | _ =>
    if cs.any isSeparator then .error .badCharacter
    else .ok (.name (String.ofList (Percent.encode Percent.isControl cs)))

end Waybill.Url
