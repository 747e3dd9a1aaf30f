import RamlDoc.Include.Context

/-!
# Sources

A source is where a value comes from: the files within reach, and the file that holds the value.
`Source.load` reads the text of a file.
-/

namespace RamlDoc

/-- Where a value comes from. -/
structure Source where
  files : FileSystem
  context : FileContext
deriving DecidableEq, Repr

namespace Source

/-- How many more includes can be nested at most. -/
def remaining (source : Source) : Nat := source.context.remaining

end Source

/-- The text of the file at a path. -/
def FileSystem.load (files : FileSystem) (path : Path) : Except Error String :=
  match files.find? path with
  | none => .error (.fileNotFound path)
  | some .directory => .error (.unreadable path .isDirectory)
  | some (.file none) => .error (.unreadable path .notText)
  | some (.file (some text)) => .ok text

end RamlDoc
