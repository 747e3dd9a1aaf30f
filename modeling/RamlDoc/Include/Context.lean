import RamlDoc.Error
import RamlDoc.Files.FileSystem
import RamlDoc.Options

/-!
# File contexts

A file context says which file a value comes from and which files are being read around it. Each
include enters a context whose chain is longer by a file that was not on it. The chain stays within
the depth limit, so includes can be nested only `FileContext.remaining` times more: the measure on
which every reader that follows includes terminates (`FileContext.remaining_lt_of_enter`).
-/

namespace RamlDoc

/-- The file that a value comes from. -/
structure FileContext where
  /-- The file itself; a text in memory has none. -/
  file : Option Path
  /-- What identifies the file and the files that include it, innermost first. -/
  chain : List Location
  options : Options
deriving DecidableEq, Repr

namespace FileContext

/-- The context of the root document in a file. -/
def forFile (files : FileSystem) (path : Path) (options : Options) : FileContext :=
  ⟨some path, [files.identity path], options⟩

/-- The context of a text in memory, where includes are not available. -/
def detached (options : Options) : FileContext := ⟨none, [], options⟩

/-- Whether include directives can be followed. -/
def includesAvailable (context : FileContext) : Bool := context.file.isSome

/-- The number of includes between the root document and the file. -/
def depth (context : FileContext) : Nat := context.chain.length - 1

/-- How many more includes can be nested at most. -/
def remaining (context : FileContext) : Nat :=
  context.options.maxIncludeDepth + 1 - context.chain.length

/-- The context of an included file. -/
def enter (files : FileSystem) (context : FileContext) (path : Path) : Except Error FileContext :=
  if files.identity path ∈ context.chain then .error (.circularInclude path)
  else if context.options.maxIncludeDepth ≤ context.depth then
    .error (.includesTooDeep path context.options.maxIncludeDepth)
  else
    .ok { context with file := some path, chain := files.identity path :: context.chain }

/-- A context is entered exactly when its file is not on the chain and the limit is not reached. -/
theorem enter_eq_ok {files : FileSystem} {context entered : FileContext} {path : Path} :
    context.enter files path = .ok entered ↔
      files.identity path ∉ context.chain ∧ context.depth < context.options.maxIncludeDepth ∧
        entered =
          { context with file := some path, chain := files.identity path :: context.chain } := by
  unfold enter
  split
  next h => exact ⟨fun hok => by simp at hok, fun hentered => absurd h hentered.1⟩
  next hfresh =>
    split
    next h =>
      exact ⟨fun hok => by simp at hok, fun hentered => absurd h (Nat.not_le.2 hentered.2.1)⟩
    next hdepth =>
      rw [Except.ok.injEq, eq_comm]
      exact ⟨fun h => ⟨hfresh, Nat.not_le.1 hdepth, h⟩, fun h => h.2.2⟩

/-- Entering a file leaves fewer includes to nest. -/
theorem remaining_lt_of_enter {files : FileSystem} {context entered : FileContext} {path : Path}
    (h : context.enter files path = .ok entered) : entered.remaining < context.remaining := by
  obtain ⟨_, hdepth, rfl⟩ := enter_eq_ok.1 h
  simp only [remaining, depth, List.length_cons] at *
  omega

/-- The path of an include target: relative to the directory of the file. -/
def resolvePath (context : FileContext) (target : String) : Except Error Path :=
  match context.file with
  | none => .error (.includesUnavailable target)
  | some file => .ok ((file.parent?.getD ⟨""⟩).join target)

end FileContext

end RamlDoc
