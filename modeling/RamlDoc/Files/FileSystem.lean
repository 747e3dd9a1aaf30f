import RamlDoc.Files.Path

/-!
# File systems

A file system as a value: what stands at each absolute location. A path is followed part by part, so
a part that leads on from a file, or from nothing, leads nowhere, also when two dots come after it.
A location is a list of names without dots; it identifies a file however a path to it is written.
-/

namespace RamlDoc

/-- The place of a file or directory: the names from the root directory down to it. -/
abbrev Location := List String

/-- What stands at a location. A file that is not valid UTF-8 has no text. -/
inductive FileEntry where
  | directory
  | file (text : Option String)
deriving DecidableEq, Repr

/-- Files and directories by location. -/
structure FileSystem where
  entries : List (Location × FileEntry)
deriving DecidableEq, Repr

namespace FileSystem

/-- The file system that holds nothing but the root directory. -/
def empty : FileSystem := ⟨[]⟩

/-- What stands at a location. -/
def entry? (files : FileSystem) (location : Location) : Option FileEntry :=
  if location.isEmpty then some .directory else files.entries.lookup location

/-- Follows the pieces of a path from a location on. -/
def follow? (files : FileSystem) : (location : Location) → (pieces : List String) → Option Location
  | location, [] => (files.entry? location).map fun _ => location
  | location, piece :: pieces =>
    match files.entry? location with
    | some .directory =>
      if Path.isIdle piece then files.follow? location pieces
      else if piece = ".." then files.follow? location.dropLast pieces
      else files.follow? (location ++ [piece]) pieces
    | _ => none

/-- The location that a path leads to, if something stands there. -/
def locate? (files : FileSystem) (path : Path) : Option Location :=
  files.follow? [] path.pieces

/-- What a path leads to. -/
def find? (files : FileSystem) (path : Path) : Option FileEntry :=
  (files.locate? path).bind files.entry?

/-- What identifies the file at a path: its location, or the parts of the path where nothing is
there. -/
def identity (files : FileSystem) (path : Path) : Location :=
  (files.locate? path).getD path.parts

/-- The file system without what stands at a location. -/
def erase (files : FileSystem) (location : Location) : FileSystem :=
  ⟨files.entries.filter fun entry => entry.1 ≠ location⟩

/-- The file system with an entry at a location, in place of what stood there. -/
def put (files : FileSystem) (location : Location) (entry : FileEntry) : FileSystem :=
  ⟨(location, entry) :: (files.erase location).entries⟩

/-- The file system with the directories on the way to a location. -/
def makeParents (files : FileSystem) (location : Location) : FileSystem :=
  ((List.range location.length).map location.take).foldl
    (fun files location => if (files.entry? location).isSome then files
      else files.put location .directory) files

/-- The file system with an entry at a location, and the directories on the way to it. -/
def insert (files : FileSystem) (location : Location) (entry : FileEntry) : FileSystem :=
  (files.makeParents location).put location entry

end FileSystem

end RamlDoc
