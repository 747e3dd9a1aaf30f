import RamlDoc.Model.Document
import RamlDoc.Read.Library
import RamlDoc.Read.Resource

/-!
# Reading documents

A document is read from a text in memory, where includes are not available, or from a file.
-/

namespace RamlDoc

open Yaml

namespace Chapter

/-- Reads a chapter of the documentation. -/
def read (source : Source) : Tree → Reading Chapter
  | .mapping entries => do
    let title ← Field.required "title" "documentation entry"
      (← Field.text entries "title" source)
    let content ← Field.required "content" ("documentation entry '" ++ title ++ "'")
      (← Field.text entries "content" source)
    return { title, content, annotations := annotationsOf entries }
  | other => Reading.fail (.unexpected "documentation" "a sequence of mappings" other)

/-- Reads the `documentation` field of a document. -/
def readAll (source : Source) (entries : Entries) : Reading (Block Chapter) :=
  match Entries.field? entries "documentation" with
  | none => pure none
  | some (.sequence items) => Block.ofList <$> items.mapM (read source)
  | some other => Reading.fail (.unexpected "documentation" "a sequence" other)

end Chapter

namespace Document

/-- What messages call the root of a document. -/
def rootName : String := "document root"

/-- Reads a document from the entries of its mapping. -/
def ofEntries (source : Source) (entries : Entries) : Reading Document := do
  let title ← Field.required "title" rootName (← Field.text entries "title" source)
  let description ← Field.text entries "description" source
  let version ← Field.string entries "version"
  let baseUri ← Field.string entries "baseUri"
  let baseUriParameters ← Parameter.readOfUri source "baseUriParameters" entries
  let protocols ← Protocol.readAll entries
  let mediaTypes ← Field.strings entries "mediaType"
  let documentation ← Chapter.readAll source entries
  let declarations ← Declarations.readOfDocument source entries
  let securedBy ← readSecuredBy entries
  let uses ← Library.readUses source entries
  let resources ← Resource.readEntries source entries
  return { title, description, version, baseUri, baseUriParameters, protocols, mediaTypes
           documentation, declarations, securedBy, uses
           resources := Block.ofList resources
           annotations := annotationsOf entries }

/-- Reads a document from the tree of its text. -/
def ofTree (source : Source) : Tree → Reading Document
  | .mapping entries => ofEntries source entries
  | .null => Reading.fail (.missingKey "title" rootName)
  | other => Reading.fail (.unexpected rootName "a mapping" other)

/-- Reads a document from its text. -/
def ofText (source : Source) (text : List Char) : Reading Document := do
  Header.checkRoot text
  let tree ← Fixup.readTree source.context.options text
  unless source.context.includesAvailable do
    ensureNoIncludes tree
  Reading.note (.documentStarted source.context.file)
  let document ← ofTree source tree
  Reading.note <| .documentRead document.title document.resourcesDepthFirst.length
    document.uses.elements.length
  return document

/-- Reads a document from a text in memory. -/
def ofString (text : String) (options : Options := {}) : Reading Document :=
  ofText ⟨.empty, .detached options⟩ text.toList

/-- Reads a document from the file at a path. -/
def ofFile (files : FileSystem) (path : Path) (options : Options := {}) : Reading Document := do
  let text ← files.load path
  ofText ⟨files, .forFile files path options⟩ text.toList

end Document

end RamlDoc
