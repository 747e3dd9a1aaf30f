import RamlDoc.Model.Resource
import RamlDoc.Read.Operation

/-!
# Reading resources

Every entry of a mapping whose key starts with a slash is a resource. Reading goes down into the
values of entries, or into included files where fewer includes can be nested.
-/

namespace RamlDoc

open Yaml

namespace Resource

/-- The path that a key stands for. -/
def pathOf? (key : Tree) : Option String :=
  key.asString?.filter fun text => text.toList.head? = some '/'

/-- Reads a resource from the entries of a mapping, given how the resources in it are read. -/
def ofEntries (source : Source) (path : String) (entries : Entries)
    (readChildren : Reading (List Resource)) : Reading Resource := do
  let displayName ← Field.text entries "displayName" source
  let description ← Field.text entries "description" source
  let methods ← Method.readAll source false entries
  let resources ← readChildren
  let traits ← readTraitUsages entries
  let resourceType ← Reading.lift ((Entries.field? entries "type").mapM (readUsage "type"))
  let securedBy ← readSecuredBy entries
  let uriParameters ← Parameter.readOfUri source "uriParameters" entries
  return { path, displayName, description
           annotations := annotationsOf entries
           methods
           resources := Block.ofList resources
           traits, resourceType, securedBy, uriParameters }

mutual

/-- Reads a resource. -/
def read (source : Source) (path : String) (tree : Tree) : Reading Resource := do
  let slot ← source.openSlot none tree
  readContent slot.origin path slot.content
termination_by (source.remaining, sizeOf tree, 1)
decreasing_by
  have := slot.within
  simp only [Prod.lex_def]
  omega

/-- Reads the resource that stands in a slot. -/
def readContent (source : Source) (path : String) : Tree → Reading Resource
  | .mapping entries => ofEntries source path entries (readEntries source entries)
  | .null => ofEntries source path [] (pure [])
  | other => Reading.fail (.unexpected path "a mapping" other)
termination_by tree => (source.remaining, sizeOf tree, 0)

/-- Reads the resources among the entries of a mapping. -/
def readEntries (source : Source) : (entries : List (Tree × Tree)) → Reading (List Resource)
  | [] => pure []
  | (key, value) :: entries =>
    match pathOf? key with
    | none => readEntries source entries
    | some path => do
      let resource ← read source path value
      return resource :: (← readEntries source entries)
termination_by entries => (source.remaining, sizeOf entries, 0)

end

end Resource

end RamlDoc
