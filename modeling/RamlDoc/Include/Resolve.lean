import RamlDoc.Fixup.Document
import RamlDoc.Header
import RamlDoc.Include.Directive
import RamlDoc.Include.Source
import RamlDoc.Yaml.Writer

/-!
# Following includes

An include directive is followed in a fixed order: the path is resolved, the context of the file is
entered, the text is loaded, the header is checked where a kind of fragment is wanted, and the tree
of the text is read. What is included carries a proof that fewer includes can be nested below it.
-/

namespace RamlDoc

open Yaml

/-- A tree from an included file, with its source. -/
structure Included (parent : Source) where
  source : Source
  tree : Tree
  nested : source.remaining < parent.remaining

namespace Source

/-- How a value that is no directive is shown: a string as it is, any other value as YAML, and a
value without a written form as nothing. -/
def shown : Tree → String
  | .string text => text
  | tree => String.ofList (Text.trimEnd ((Writer.write? tree).getD "").toList)

/-- The target of a directive. -/
def directive (tree : Tree) : Except Error String :=
  match includeTarget? tree with
  | some target => .ok target
  | none => .error (.notAnInclude (shown tree))

/-- The source of the file at a path, included from another. -/
def enter (source : Source) (path : Path) :
    Except Error { entered : Source // entered.remaining < source.remaining } :=
  match h : source.context.enter source.files path with
  | .error error => .error error
  | .ok context =>
    .ok ⟨{ source with context }, FileContext.remaining_lt_of_enter h⟩

/-- Includes the file that a target leads to. -/
def resolveTarget (source : Source) (target : String) (fragment : Option FragmentKind) :
    Reading (Included source) := do
  let path ← source.context.resolvePath target
  let entered ← source.enter path
  let text ← source.files.load path
  if let some kind := fragment then
    Header.checkFragment text.toList path kind
  Reading.note (.includeResolved target path fragment entered.val.context.depth)
  let tree ← Fixup.readTree source.context.options text.toList
  return ⟨entered.val, tree, entered.property⟩

/-- Includes the file that a directive leads to. -/
def resolve (source : Source) (tree : Tree) (fragment : Option FragmentKind) :
    Reading (Included source) := do
  source.resolveTarget (← directive tree) fragment

/-- The text of the file that a directive leads to. -/
def readText (source : Source) (tree : Tree) : Reading String := do
  let target ← directive tree
  let path ← source.context.resolvePath target
  discard <| liftM (source.enter path)
  Reading.note (.textIncludeResolved target path)
  source.files.load path

end Source

end RamlDoc
