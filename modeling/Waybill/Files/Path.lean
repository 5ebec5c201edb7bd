/-
  Paths of files.

  * `joined` is a path seen from a directory: an absolute path is itself;
  * `fileName?` is the last part of a path, `directory?` what stands before it.

  Blank parts and parts that are a single point do not count, except that a leading point is kept.
-/
import Waybill.Text.Split

namespace Waybill.Files

open Waybill.Text

/-- Whether a path starts at the root. -/
def isAbsolute (path : String) : Bool :=
  path.startsWith "/"

/-- The path seen from a directory. -/
def joined (directory path : String) : String :=
  if isAbsolute path then path
  else if directory.isEmpty then path
  else if directory.endsWith "/" then directory ++ path
  else directory ++ "/" ++ path

/-- The parts of a path between its slashes. -/
def pieces (path : String) : List String :=
  (splitOn '/' path.toList).map String.ofList

/-- Whether a part of a path counts. -/
def counts (piece : String) : Bool :=
  piece != "" && piece != "."

/-- The last part of a path, unless it leads upwards or there is none. -/
def fileName? (path : String) : Option String :=
  match (pieces path).reverse.dropWhile (fun p => !counts p) with
  | [] => none
  | name :: _ => if name == ".." then none else some name

/-- The path without its last part, unless it has none. -/
def directory? (path : String) : Option String :=
  let kept := (pieces path).reverse.dropWhile fun p => !counts p
  match kept with
  | [] => if isAbsolute path || path.isEmpty then none else some ""
  | _ :: before =>
    let before := before.dropWhile fun p => !counts p
    match before.reverse with
    | [] => some (if isAbsolute path then "/" else if path.startsWith "./" then "." else "")
    | parts => some ("/".intercalate parts)

end Waybill.Files
