import RamlDoc.Model.Library
import RamlDoc.Read.Template

/-!
# Reading libraries

A library is used under a name, from the file at a path or written in place, and may use further
libraries. An error in a library is told with its name.
-/

namespace RamlDoc

open Yaml

namespace Declarations

/-- Reads the declarations of a document. -/
def readOfDocument (source : Source) (entries : Entries) : Reading Declarations := do
  let types ← TypeDeclaration.readAll source (Entries.field? entries "types")
  let traits ← TraitDefinition.readAll source (Entries.field? entries "traits")
  let resourceTypes ← ResourceType.readAll source (Entries.field? entries "resourceTypes")
  let annotationTypes ← AnnotationType.readAll source (Entries.field? entries "annotationTypes")
  let securitySchemes ← SecurityScheme.readAll source (Entries.field? entries "securitySchemes")
  return { types, traits, resourceTypes, annotationTypes, securitySchemes }

/-- Reads the declarations of a library. -/
def readOfLibrary (source : Source) (entries : Entries) : Reading Declarations := do
  let types ← TypeDeclaration.readAll source (Entries.field? entries "types")
  let resourceTypes ← ResourceType.readAll source (Entries.field? entries "resourceTypes")
  let traits ← TraitDefinition.readAll source (Entries.field? entries "traits")
  let securitySchemes ← SecurityScheme.readAll source (Entries.field? entries "securitySchemes")
  let annotationTypes ← AnnotationType.readAll source (Entries.field? entries "annotationTypes")
  return { types, traits, resourceTypes, annotationTypes, securitySchemes }

end Declarations

namespace Library

/-- The file that an entry under `uses` leads to: by a directive, or by its path alone. -/
def pathOf? (tree : Tree) : Option String :=
  (includeTarget? tree).or (tree.asString?.map Text.trimmed)

/-- Reads a library from the entries of a mapping, given how the libraries it uses are read. -/
def ofEntries (source : Source) (identifier : String) (entries : Entries)
    (readUsed : Reading (Block Library)) : Reading Library := do
  let usage ← Field.text entries "usage" source
  let declarations ← Declarations.readOfLibrary source entries
  let uses ← readUsed
  return { identifier, usage, declarations, uses }

theorem sizeOf_get?_lt {entries : Entries} {key : String} {value : Tree}
    (h : Entries.get? entries key = some value) : sizeOf value < sizeOf entries := by
  obtain ⟨entry, hentry, rfl⟩ := Option.map_eq_some_iff.1 h
  have := List.sizeOf_lt_of_mem (List.mem_of_find?_eq_some hentry)
  obtain ⟨k, v⟩ := entry
  simp only [Prod.mk.sizeOf_spec] at *
  omega

theorem sizeOf_field?_lt {entries : Entries} {key : String} {value : Tree}
    (h : Entries.field? entries key = some value) : sizeOf value < sizeOf entries :=
  sizeOf_get?_lt (Option.filter_eq_some_iff.1 h).1

mutual

/-- Reads the libraries in the `uses` field of a node. -/
def readUses (source : Source) (entries : Entries) : Reading (Block Library) :=
  match _h : Entries.field? entries "uses" with
  | none => pure none
  | some tree => do
    let slot ← source.openBlock tree
    readContent slot.origin slot.content
termination_by (source.remaining, sizeOf entries, 0)
decreasing_by
  have := slot.within
  have := sizeOf_field?_lt _h
  simp only [Prod.lex_def]
  omega

/-- Reads the libraries of a block. -/
def readContent (source : Source) : Tree → Reading (Block Library)
  | .mapping entries => Block.ofList <$> readEntries source entries
  | .null => pure none
  | other => Reading.fail (.unexpected "uses" "a mapping" other)
termination_by tree => (source.remaining, sizeOf tree, 0)

/-- Reads each entry of a block of libraries. -/
def readEntries (source : Source) : (entries : List (Tree × Tree)) → Reading (List Library)
  | [] => pure []
  | (key, value) :: entries => do
    let name ← keyText "Library" key
    let library ← (read source name value).mapError (.failed .library name)
    return library :: (← readEntries source entries)
termination_by entries => (source.remaining, sizeOf entries, 0)

/-- Reads a library. -/
def read (source : Source) (identifier : String) (tree : Tree) : Reading Library :=
  match pathOf? tree with
  | some target => do
    let included ← source.resolveTarget target (some .library)
    readInPlace included.source identifier included.tree
  | none => readInPlace source identifier tree
termination_by (source.remaining, sizeOf tree, 2)
decreasing_by
  · have := included.nested
    simp only [Prod.lex_def]
    omega
  · simp [Prod.lex_def]

/-- Reads a library that is written in place. -/
def readInPlace (source : Source) (identifier : String) : Tree → Reading Library
  | .mapping entries => ofEntries source identifier entries (readUses source entries)
  | .null => ofEntries source identifier [] (pure none)
  | other => Reading.fail (.unexpected identifier "a mapping" other)
termination_by tree => (source.remaining, sizeOf tree, 1)

end

end Library

end RamlDoc
