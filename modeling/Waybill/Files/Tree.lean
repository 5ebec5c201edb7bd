/-
  A tree of files kept in memory.

  * `Tree` holds files and directories by the names on the way to them; the root is always there;
  * `Tree.place?` follows a path through directories that are there;
  * `Tree.read?`, `Tree.write?` and `Tree.makeDirs?` read a file, write one into a directory that is
    there, and make a directory with all those above it.
-/
import Waybill.Files.Path

namespace Waybill.Files

/-- The names on the way from the root, the nearest to the root first. -/
abbrev Place : Type := List String

/-- Files with their contents and directories without; `root` is what absolute paths start with. -/
structure Tree where
  root : String
  nodes : List (Place × Option ByteArray)
  deriving Inhabited

namespace Tree

/-- What stands at a place: nothing, a directory, or a file. -/
def node? (t : Tree) (p : Place) : Option (Option ByteArray) :=
  if p.isEmpty then some none else (t.nodes.find? fun n => n.1 == p).map (·.2)

/-- Whether there is a directory at a place. -/
def isDir (t : Tree) (p : Place) : Bool :=
  t.node? p == some none

/-- The place that names lead to, each but the last one through a directory. -/
def walk (t : Tree) : Place → List String → Option Place
  | p, [] => some p
  | p, name :: names =>
    if !t.isDir p then none
    else if !counts name then walk t p names
    else if name == ".." then walk t p.dropLast names
    else walk t (p ++ [name]) names

/-- The names of a path, from the root on. -/
def names? (t : Tree) (path : String) : Option (List String) :=
  if path.isEmpty then none
  else if path == t.root then some []
  else if path.startsWith (t.root ++ "/") then
    some (pieces (String.ofList (path.toList.drop (t.root.length + 1))))
  else if isAbsolute path then none
  else some (pieces path)

/-- The place of a path. -/
def place? (t : Tree) (path : String) : Option Place :=
  (t.names? path).bind (t.walk [])

/-- The content of the file at a path. -/
def read? (t : Tree) (path : String) : Option ByteArray :=
  ((t.place? path).bind t.node?).join

/-- The tree with a node replaced or added. -/
def put (t : Tree) (p : Place) (node : Option ByteArray) : Tree :=
  { t with nodes := (t.nodes.filter fun n => n.1 != p) ++ [(p, node)] }

/-- The tree with a file written at a path. -/
def write? (t : Tree) (path : String) (content : ByteArray) : Option Tree := do
  let p ← t.place? path
  if t.isDir p || !t.isDir p.dropLast then none
  else return t.put p (some content)

/-- The tree with a directory below a place for each name, one inside the other. -/
def makeFrom (t : Tree) : Place → List String → Option Tree
  | _, [] => some t
  | p, name :: names =>
    if !counts name then makeFrom t p names
    else if name == ".." then makeFrom t p.dropLast names
    else
      let p := p ++ [name]
      match t.node? p with
      | none => makeFrom (t.put p none) p names
      | some none => makeFrom t p names
      | some (some _) => none

/-- The tree with a directory at a path and all those above it. -/
def makeDirs? (t : Tree) (path : String) : Option Tree :=
  if path.isEmpty then some t else (t.names? path).bind (t.makeFrom [])

/-- The places and contents of all files below a place, by name. -/
def filesBelow (t : Tree) (p : Place) : List (Place × ByteArray) :=
  (t.nodes.filterMap fun n =>
    if p.isPrefixOf n.1 then n.2.map fun content => (n.1, content) else none).mergeSort
      fun a b => "/".intercalate a.1 ≤ "/".intercalate b.1

end Tree

end Waybill.Files
