/-
  Archives: named files in one.

  Each file stands behind a header of its own; a directory at the end names all files again, and
  a record after it says where the directory is.

  * `Entry` is a file of an archive;
  * `pack` writes an archive, every file compressed;
  * `unpack?` reads one;
  * `zip` writes an archive into a file unless its names are unfit, `unzip` reads a file.

  Statement: `repeats_eq_false`.
-/
import Waybill.Archive.Deflate
import Waybill.Text.Utf8

namespace Waybill.Archive

/-- A file of an archive: its name, whether it is compressed, and its content. -/
structure Entry where
  name : String
  compressed : Bool
  content : List UInt8
  deriving DecidableEq, Inhabited

/-! ## Writing -/

/-- What both headers of a file say: version, flags, method, time, date, checksum and sizes, and
    the length of the name. -/
def facts (e : Entry) (packed : List UInt8) : List UInt8 :=
  littleEndian 2 20 ++ littleEndian 2 0x800 ++ littleEndian 2 8 ++ littleEndian 2 0 ++
    littleEndian 2 0x21 ++ littleEndian 4 (crc32 e.content).toNat ++
    littleEndian 4 packed.length ++ littleEndian 4 e.content.length ++
    littleEndian 2 e.name.utf8ByteSize

/-- The mark of a file's header. -/
def fileMark : List UInt8 := [0x50, 0x4B, 3, 4]

/-- The mark of an entry of the directory. -/
def directoryMark : List UInt8 := [0x50, 0x4B, 1, 2]

/-- The mark of the last record. -/
def endMark : List UInt8 := [0x50, 0x4B, 5, 6]

/-- A file with its header, and its entry of the directory. -/
def packOne (offset : Nat) (e : Entry) : List UInt8 × List UInt8 :=
  let packed := deflate e.content
  let name := e.name.toUTF8.data.toList
  (fileMark ++ facts e packed ++ littleEndian 2 0 ++ name ++ packed,
    directoryMark ++ littleEndian 2 20 ++ facts e packed ++ List.replicate 12 0 ++
      littleEndian 4 offset ++ name)

/-- The files from an offset on, and their entries of the directory. -/
def packAll : Nat → List Entry → List UInt8 × List UInt8
  | _, [] => ([], [])
  | offset, e :: es =>
    let one := packOne offset e
    let rest := packAll (offset + one.1.length) es
    (one.1 ++ rest.1, one.2 ++ rest.2)

/-- The archive of some files. -/
def pack (entries : List Entry) : List UInt8 :=
  let all := packAll 0 entries
  all.1 ++ all.2 ++ endMark ++ littleEndian 4 0 ++ littleEndian 2 entries.length ++
    littleEndian 2 entries.length ++ littleEndian 4 all.2.length ++
    littleEndian 4 all.1.length ++ littleEndian 2 0

/-! ## Reading -/

/-- The number in the bytes at a place. -/
def number (bytes : List UInt8) (offset width : Nat) : Nat :=
  ofLittleEndian ((bytes.drop offset).take width)

/-- The last record: the first one found from the end on, the bytes given in reverse. -/
def endRecord? : List UInt8 → List UInt8 → Option (List UInt8)
  | [], _ => none
  | b :: before, after =>
    if endMark.isPrefixOf (b :: after) && 22 ≤ (b :: after).length then some (b :: after)
    else endRecord? before (b :: after)

/-- The content behind a file's header. -/
def contentAt? (bytes : List UInt8) (offset method size : Nat) : Option (List UInt8) := do
  let header := bytes.drop offset
  if !fileMark.isPrefixOf header then none
  let packed := (header.drop (30 + number header 26 2 + number header 28 2)).take size
  if packed.length ≠ size then none
  if method = 0 then some packed
  else if method = 8 then inflate? packed
  else none

/-- The files named by the entries of a directory. -/
def entries? (bytes : List UInt8) : Nat → List UInt8 → Option (List Entry)
  | 0, _ => some []
  | n + 1, directory => do
    if !directoryMark.isPrefixOf directory || directory.length < 46 then none
    let method := number directory 10 2
    let nameSize := number directory 28 2
    let content ← contentAt? bytes (number directory 42 4) method (number directory 20 4)
    if (crc32 content).toNat ≠ number directory 16 4 then none
    let name := String.ofList (Text.decodeChars ((directory.drop 46).take nameSize))
    let rest ← entries? bytes n
      (directory.drop (46 + nameSize + number directory 30 2 + number directory 32 2))
    return ⟨name, method == 8, content⟩ :: rest

/-- The files of an archive. -/
def unpack? (bytes : List UInt8) : Option (List Entry) := do
  let record ← endRecord? bytes.reverse []
  entries? bytes (number record 10 2) (bytes.drop (number record 16 4))

/-! ## Files -/

/-- What writes files into an archive, or says why it does not. -/
abbrev Writer : Type := List Entry → Except String ByteArray

/-- What reads the files of an archive. -/
abbrev Reader : Type := ByteArray → Option (List Entry)

/-- The files written are the files read. -/
def ReadsBack (read : Reader) (write : Writer) : Prop :=
  ∀ entries bytes, write entries = .ok bytes → read bytes = some entries

/-- Whether a name stands twice in a list. -/
def repeats : List String → Bool
  | [] => false
  | name :: names => names.contains name || repeats names

theorem repeats_eq_false {names : List String} : repeats names = false ↔ names.Nodup := by
  induction names with
  | nil => simp [repeats]
  | cons name names ih => simp [repeats, ih]

/-- The greatest length of a name in an archive, in bytes. -/
def maxNameSize : Nat := 65535

/-- Writes an archive of files with distinct names that are not too long. -/
def zip : Writer := fun entries =>
  if repeats (entries.map (·.name)) then .error "a name stands twice"
  else if entries.any fun e => maxNameSize < e.name.utf8ByteSize then .error "a name is too long"
  else .ok ⟨(pack entries).toArray⟩

/-- Reads an archive. -/
def unzip : Reader := fun bytes => unpack? bytes.data.toList

end Waybill.Archive
