import RamlDoc.Text.Lines

/-!
# Paths

A path is a text of parts between slashes. Joining and taking the parent work on the text, so paths
appear in messages as they were put together: nothing is normalised.
-/

namespace RamlDoc

/-- A path to a file or directory. -/
structure Path where
  text : String
deriving DecidableEq, Repr

namespace Path

/-- Whether a path starts at the root directory. -/
def isAbsolute (path : Path) : Bool := path.text.toList.head? = some '/'

/-- What stands between the slashes of a path, empty texts included. -/
def pieces (path : Path) : List String :=
  (Text.splitOn '/' path.text.toList).map String.ofList

/-- Whether a piece of a path leads nowhere else. -/
def isIdle (piece : String) : Bool := piece = "" || piece = "."

/-- The parts of a path that lead on. -/
def parts (path : Path) : List String := path.pieces.filter fun piece => !isIdle piece

/-- Drops pieces that lead nowhere from the end of a list of pieces in reverse. -/
def dropIdle (reversed : List String) : List String := reversed.dropWhile isIdle

/-- The path without its last part, if it has a part. What comes before the last part is left as it
is, apart from slashes and dots at its end. -/
def parent? (path : Path) : Option Path :=
  match dropIdle path.pieces.reverse with
  | [] => none
  | _ :: before =>
    let front := (dropIdle before).reverse.map String.toList
    let text := String.ofList (Text.joinWith ['/'] front)
    some ⟨if path.isAbsolute && front.isEmpty then "/" else text⟩

/-- A path relative to a directory: an absolute path stands for itself. -/
def join (directory : Path) (target : String) : Path :=
  if (Path.mk target).isAbsolute then ⟨target⟩
  else if directory.text.isEmpty || directory.text.toList.getLast? = some '/' then
    ⟨directory.text ++ target⟩
  else ⟨directory.text ++ "/" ++ target⟩

end Path

end RamlDoc
