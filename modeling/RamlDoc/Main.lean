import RamlDoc.Command.Run

/-!
# The program

The outer layer of the command line. A run is a function of the files it knows, so it is repeated with
more files until it asks for none that has not been looked for.
-/

namespace RamlDoc.Main

open Command

/-- What stands at a path on the disk. -/
def lookUp (path : String) : IO (Option FileEntry) := do
  try
    let bytes ← IO.FS.readBinFile path
    return some (.file (String.fromUTF8? bytes))
  catch
    | .noFileOrDirectory .. => return none
    | _ => return some .directory

/-- The files with what stands at a path, and with the directories on the way to it. -/
def load (files : FileSystem) (path : Path) : IO FileSystem := do
  let mut files := files
  let mut onTheWay := ""
  for piece in path.pieces do
    onTheWay := onTheWay ++ "/" ++ piece
    if !Path.isIdle piece && piece ≠ ".." then
      if let some entry ← lookUp onTheWay then
        files := files.insert (files.identity ⟨onTheWay⟩) entry
  return files

/-- The paths that a run looks for in vain. -/
def missing (environment : Environment) (arguments : List String) : List Path :=
  match Arguments.read arguments with
  | .error _ => []
  | .ok invocation =>
    let files :=
      match invocation.action with
      | .validate files _ => files
      | .dump file _ => [file]
    files.filterMap fun file =>
      match (environment.readFile file).result with
      | .error error =>
        match error.rootCause with
        | .fileNotFound path => some path
        | _ => none
      | .ok _ => none

/-- Loads files until a run looks for none that has not been looked for. -/
def prepare (environment : Environment) (arguments : List String) : IO Environment := do
  let mut environment := environment
  let mut tried : List Path := []
  repeat
    let wanted := (missing environment arguments).filter (· ∉ tried)
    if wanted.isEmpty then break
    for path in wanted do
      environment := { environment with files := ← load environment.files path }
    tried := tried ++ wanted
  return environment

/-- The settings that a run may ask for. -/
def settings : List String := ["RUST_LOG", "RAML_LOG_LEVEL", "RAML_LOG_FORMAT"]

end RamlDoc.Main

open RamlDoc RamlDoc.Command in
/-- Runs the command line on the arguments of the process. -/
def main (arguments : List String) : IO UInt32 := do
  let directory ← IO.FS.realPath "."
  let known ← RamlDoc.Main.settings.filterMapM fun name => do
    return (← IO.getEnv name).map (name, ·)
  let environment : Environment :=
    { directory := ⟨directory.toString⟩, files := .empty
      setting? := fun name => known.lookup name }
  let environment ← RamlDoc.Main.prepare environment arguments
  let outcome := run environment arguments
  for line in outcome.output do
    IO.println line
  for line in outcome.diagnostics do
    IO.eprintln line
  return outcome.code.toUInt32
