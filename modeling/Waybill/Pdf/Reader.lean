/-
  Reading PDF files.

  A file ends with the place of its table of objects.  The table gives the place of each object
  by number; tables of earlier states of the file are read too, and a newer entry stands before
  an older one.  An object that cannot be read is left out.

  * `Document.ofBytes?` reads a file, or tells what it lacks.
-/
import Waybill.Pdf.Document
import Waybill.Pdf.Filter
import Waybill.Pdf.Lexical

namespace Waybill.Pdf

open Waybill.Decimal

/-- What a file lacks that is no PDF file. -/
inductive Unreadable where
  | header
  | place
  | table
  | earlierPlace
  | streamPlace
  deriving DecidableEq, Inhabited

/-- What is wrong with the file. -/
def Unreadable.message : Unreadable → String
  | .header => "invalid file header"
  | .place => "failed parsing cross reference table: invalid start value"
  | .table => "invalid file trailer"
  | .earlierPlace => "failed parsing cross reference table: invalid start value in Prev field"
  | .streamPlace => "failed parsing cross reference table: invalid start value in XRefStm field"

/-! ## The table of objects -/

/-- Where an object is: at a place in the file, or inside a stream of objects. -/
inductive Place where
  | direct (offset generation : Nat)
  | packed
  deriving DecidableEq, Inhabited

/-- The places of objects in the order of their numbers. -/
abbrev Table : Type := List (Nat × Place)

namespace Table

/-- The table with one more place; `newer` tells whether it replaces one that is there. -/
def put (newer : Bool) (number : Nat) (place : Place) : Table → Table
  | [] => [(number, place)]
  | (n, p) :: table =>
    if n = number then (n, if newer then place else p) :: table
    else if number < n then (number, place) :: (n, p) :: table
    else (n, p) :: put newer number place table

/-- The table with the places of an older one. -/
def withOlder (table older : Table) : Table :=
  older.foldl (fun t e => t.put false e.1 e.2) table

/-- The offset of the object of a reference. -/
def offset? (table : Table) (r : Ref) : Option Nat :=
  match table.lookup r.number with
  | some (.direct offset generation) => if generation = r.generation then some offset else none
  | _ => none

end Table

/-! ## Objects in the file -/

/-- An object with the text from its content on, if it is a stream whose length is not known. -/
abbrev Found : Type := Object × Option (List Char)

/-- The stream with its content, given its length. -/
def streamOf? (entries : Dict) (body : List Char) (length : Nat) : Option Object := do
  let rest := body.drop length
  if body.length < length then none
  let _ ← tag? "endstream" ((eol? rest).getD rest)
  return .stream (Dict.set "Length" (.int length) entries) (Text.Octets.toBytes (body.take length))

/-- The value at the front of a text, or the stream whose dictionary is there; `lengthOf` tells
    the length that a value stands for.  A stream that is not as long as it says is read as its
    dictionary. -/
def objectAt? (lengthOf : Object → Option Int) (cs : List Char) : Option Found := do
  let (o, rest) ← value? cs
  match o, (tag? "stream" (skipSpace rest)).bind eol? with
  | .dict entries, some body =>
    match (Dict.get? "Length" entries).bind lengthOf with
    | none => return (.stream entries [], some body)
    | some n =>
      let known := if n < 0 then none else streamOf? entries body n.toNat
      return (known.getD o, none)
  | _, _ => return (o, none)

/-- The object with its reference at the front of a text. -/
def indirect? (lengthOf : Object → Option Int) (cs : List Char) : Option (Ref × Found) := do
  let (r, cs) ← objectId? (skipSpace cs)
  let cs ← tag? "obj" cs
  return (r, ← objectAt? lengthOf (skipSpace cs))

/-- The length that a value stands for, in a file with a table of objects. -/
def lengthIn (file : List Char) (table : Table) : Object → Option Int
  | .ref r => do
    let (s, o, _) ← indirect? Object.int? (file.drop (← table.offset? r))
    if s = r then o.int? else none
  | o => o.int?

/-! ## Tables in the file -/

/-- One line of a table: the place of an object in use. -/
def line? (cs : List Char) : Option (Option Place × List Char) := do
  let (offset, cs) ← digits? (2 ^ 32) cs
  let (generation, cs) ← digits? (2 ^ 32) (← tag? " " cs)
  let cs ← tag? " " cs
  let inUse := (tag? "n" cs).isSome
  let cs ← tag? "n" cs <|> tag? "f" cs
  let cs ← tag? " \r" cs <|> tag? " \n" cs <|> tag? "\r\n" cs
  return (if inUse && generation < 2 ^ 16 then some (.direct offset generation) else none, cs)

/-- The lines at the front of a text, numbered from `number` on. -/
def lines : Nat → Nat → Table → List Char → Table × List Char
  | 0, _, table, cs => (table, cs)
  | fuel + 1, number, table, cs =>
    match line? cs with
    | none => (table, cs)
    | some (none, cs) => lines fuel (number + 1) table cs
    | some (some place, cs) => lines fuel (number + 1) (table.put true number place) cs

/-- The head of a part of a table: its first number. -/
def partHead? (cs : List Char) : Option (Nat × List Char) := do
  let (first, cs) ← digits? (2 ^ 64) cs
  let (_, cs) ← digits? (2 ^ 32) (← tag? " " cs)
  return (first, ← eol? ((tag? " " cs).getD cs))

/-- The parts of a table. -/
def tableParts : Nat → Table → List Char → Table × List Char
  | 0, table, cs => (table, cs)
  | fuel + 1, table, cs =>
    match partHead? cs with
    | none => (table, cs)
    | some (first, cs) =>
      let found := lines cs.length first table cs
      tableParts fuel found.1 found.2

/-- A table in lines, with its trailer. -/
def plainTable? (cs : List Char) : Option (Table × Dict) := do
  let cs ← eol? (← tag? "xref" cs)
  let _ ← partHead? cs
  let (table, cs) := tableParts cs.length [] cs
  let (trailer, _) ← value? (skipSpace (← tag? "trailer" (skipSpace cs)))
  return (table, ← trailer.dict?)

/-- The number that bytes spell, the highest first. -/
def ofBigEndian (bytes : List UInt8) : Nat :=
  bytes.foldl (fun n b => n * 256 + b.toNat) 0

/-- The entries of a table in a stream, in fields of the given widths. -/
def fields (widths : Nat × Nat × Nat) : List Nat → Table → List UInt8 → Option Table
  | [], table, _ => some table
  | number :: numbers, table, bytes =>
    let row := widths.1 + widths.2.1 + widths.2.2
    let field := fun skip width => ofBigEndian ((bytes.drop skip).take width)
    if bytes.length < row then none
    else
      let kind := if widths.1 = 0 then 1 else field 0 widths.1
      let second := field widths.1 widths.2.1
      let third := field (widths.1 + widths.2.1) widths.2.2
      let table := match kind with
        | 1 => table.put true number (.direct second third)
        | 2 => table.put true number .packed
        | _ => table
      fields widths numbers table (bytes.drop row)

/-- The integers of an array. -/
def integers? (o : Object) : Option (List Int) :=
  o.array?.bind fun items => items.mapM Object.int?

/-- The numbers that an index of first numbers and counts stands for. -/
def indexed : List Int → List Nat
  | first :: count :: rest =>
    (List.range count.toNat).map (fun i => (first + Int.ofNat i).toNat) ++ indexed rest
  | _ => []

/-- A table in a stream, whose dictionary is the trailer. -/
def streamTable? (cs : List Char) : Option (Table × Dict) := do
  let (_, o, _) ← indirect? Object.int? cs
  match o with
  | .stream entries content =>
    let size ← (Dict.get? "Size" entries).bind Object.int?
    let index := ((Dict.get? "Index" entries).bind integers?).getD [0, size]
    match ← (Dict.get? "W" entries).bind integers? with
    | (a : Int) :: (b : Int) :: (c : Int) :: _ =>
      if a < 0 || b < 0 || c < 0 then none
      let table ← fields (a.toNat, b.toNat, c.toNat) (indexed index) []
        (shownContent entries content)
      return (table, ["Length", "W", "Index"].foldl (fun d name => Dict.erase name d) entries)
    | _ => none
  | _ => none

/-- The table and the trailer at a place of the file. -/
def tableAt (file : List Char) (offset : Nat) : Except Unreadable (Table × Dict) :=
  let cs := file.drop offset
  match plainTable? cs with
  | some (table, trailer) =>
    if ((trailer.get? "Size").bind Object.int?).isSome then .ok (table, trailer)
    else .error .table
  | none => (streamTable? cs).elim (.error .table) .ok

/-- A place in the file, given as a number. -/
def placeIn (file : List Char) (e : Unreadable) (n : Int) : Except Unreadable Nat :=
  if n < 0 || file.length < n.toNat then .error e else .ok n.toNat

/-- The table with those of earlier states: `earlier` is the place of the next, `seen` those
    already read, and `beside` the place of a table that stands beside the first. -/
def withEarlier (file : List Char) :
    Nat → List Int → Option Int → Option Int → Table → Except Unreadable Table
  | 0, _, _, _, table => .ok table
  | _, _, _, none, table => .ok table
  | fuel + 1, seen, beside, some earlier, table => do
    if earlier ∈ seen then return table
    let (older, trailer) ← tableAt file (← placeIn file .earlierPlace earlier)
    let table := table.withOlder older
    let table ← match beside with
      | none => pure table
      | some n => do
        let (older, _) ← tableAt file (← placeIn file .streamPlace n)
        pure (table.withOlder older)
    withEarlier file fuel (earlier :: seen) none ((trailer.get? "Prev").bind Object.int?) table

/-! ## Streams of objects -/

/-- The objects in a stream of objects. -/
def packedObjects (entries : Dict) (content : List UInt8) : List (Ref × Object) :=
  let cs := Text.Octets.ofBytes (shownContent entries content)
  match (entries.get? "First").bind Object.int? with
  | none => []
  | some first =>
    let words := ((String.ofList (cs.take first.toNat)).splitToList isBlank).filter (· ≠ "")
    go cs first.toNat (words.map String.toNat?)
where
  /-- The objects by pairs of a number and an offset. -/
  go (cs : List Char) (first : Nat) : List (Option Nat) → List (Ref × Object)
    | some number :: some offset :: rest =>
      match value? (cs.drop (first + offset)) with
      | some (o, _) => (⟨number, 0⟩, o) :: go cs first rest
      | none => go cs first rest
    | _ :: _ :: rest => go cs first rest
    | _ => []

/-! ## The file -/

/-- The places where a word stands in a text, from `start` on. -/
def placesOf (word : List Char) (start : Nat) : List Char → List Nat
  | [] => []
  | c :: cs =>
    let later := placesOf word (start + 1) cs
    if word.isPrefixOf (c :: cs) then start :: later else later

/-- The last place of a word that is not before `start`. -/
def lastPlace? (word : String) (start : Nat) (file : List Char) : Option Nat :=
  (placesOf word.toList start (file.drop start)).getLast?

/-- The version in the first line of the file. -/
def version? (file : List Char) : Option String := do
  let cs ← tag? "%PDF-" file
  let _ ← eol? (cs.dropWhile (!endsLine ·))
  String.fromUTF8? ⟨(Text.Octets.toBytes (cs.takeWhile (!endsLine ·))).toArray⟩

/-- The place of the table, as the end of the file gives it. -/
def tablePlace? (file : List Char) : Option Int := do
  let finish ← lastPlace? "%%EOF" (file.length - 512) file
  if finish ≤ 25 then none
  let start ← lastPlace? "startxref" (finish - 25) file
  let cs ← eol? (← tag? "startxref" (file.drop start))
  let (n, cs) ← integer? cs
  let _ ← tag? "%%EOF" (← eol? cs)
  return n

/-- The object with its content, once its length is known among all objects. -/
def completed (d : Document) (o : Object) (body : List Char) : Object :=
  match o with
  | .stream entries _ =>
    let length := match Dict.get? "Length" entries with
      | some (.ref r) => (d.follow? r).bind Object.int?
      | some v => v.int?
      | none => none
    match length with
    | some n =>
      if n < 0 || body.length < n.toNat then o
      else .stream (Dict.set "Length" (.int n) entries) (Text.Octets.toBytes (body.take n.toNat))
    | none => o
  | _ => o

/-- The object that a text has at a place of its own. -/
def placed? (lengthOf : Object → Option Int) (file : List Char) : Place → Option (Ref × Found)
  | .direct offset _ => indirect? lengthOf (file.drop offset)
  | .packed => none

/-- The objects that an object has in it. -/
def unpacked : Object → List (Ref × Object)
  | .stream entries content =>
    if Dict.typeName? entries = some "ObjStm" then packedObjects entries content else []
  | _ => []

/-- The object of a reference, completed if the last that was found there is not. -/
def settled (d : Document) (found : List (Ref × Found)) (r : Ref) (o : Object) : Object :=
  match found.reverse.find? (·.1 = r) with
  | some (_, _, some body) => completed d o body
  | _ => o

/-- The document of a table and a trailer. -/
def assembled (file : List Char) (version : String) (table : Table) (trailer : Dict) : Document :=
  let found := table.filterMap fun entry => placed? (lengthIn file table) file entry.2
  let packed := if trailer.has "Encrypt" then [] else found.flatMap fun entry => unpacked entry.2.1
  let objects := Objects.ofList (packed ++ found.map fun (r, o, _) => (r, o))
  let d : Document := ⟨version, trailer, objects⟩
  { d with objects := objects.map fun (r, o) => (r, settled d found r o) }

/-- The document in a file. -/
def Document.ofBytes? (bytes : ByteArray) : Except Unreadable Document := do
  let file := Text.Octets.ofBytes bytes.data.toList
  let some version := version? file | throw .header
  let some place := tablePlace? file | throw .place
  let place ← placeIn file .place place
  let (table, trailer) ← tableAt file place
  let number := fun name => (trailer.get? name).bind Object.int?
  let table ← withEarlier file (file.length + 2) [] (number "XRefStm") (number "Prev") table
  return assembled file version table ((trailer.erase "Prev").erase "XRefStm")

end Waybill.Pdf
