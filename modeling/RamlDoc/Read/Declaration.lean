import RamlDoc.DataType.Declared
import RamlDoc.Model.Declaration
import RamlDoc.Read.Slot
import RamlDoc.Read.Usage

/-!
# Reading declarations

Reading types, properties and annotation types. A type or property is null, a type expression, or a
mapping of facets; the facets that both have are read by `Facets.read`.
-/

namespace RamlDoc

open Yaml

namespace Restrictions

/-- Restrictions, unless there are none. -/
def unlessEmpty {α : Type} [DecidableEq α] (empty : α) (make : α → Restrictions) (found : α) :
    Option Restrictions :=
  if found = empty then none else some (make found)

/-- Reads the restrictions of a text. -/
def readString (entries : Entries) : Except Error (Option Restrictions) := do
  let pattern ← Field.string entries "pattern"
  let minLength ← Field.natural entries "minLength"
  let maxLength ← Field.natural entries "maxLength"
  return unlessEmpty {} .string { pattern, minLength, maxLength }

/-- Reads the format of a number. -/
def readFormat (entries : Entries) : Except Error (Option NumberFormat) := do
  match ← Field.string entries "format" with
  | none => return none
  | some name =>
    match NumberFormat.ofName? name with
    | some format => return some format
    | none => throw (.invalidValue "number format" name)

/-- Reads the restrictions of a number. -/
def readNumber (entries : Entries) : Except Error (Option Restrictions) := do
  let format ← readFormat entries
  let minimum ← Field.number entries "minimum"
  let maximum ← Field.number entries "maximum"
  let multipleOf ← Field.number entries "multipleOf"
  return unlessEmpty {} .number { minimum, maximum, format, multipleOf }

/-- Reads the restrictions of a file. -/
def readFile (entries : Entries) : Except Error (Option Restrictions) := do
  let fileTypes ← Field.strings entries "fileTypes"
  let minLength ← Field.natural entries "minLength"
  let maxLength ← Field.natural entries "maxLength"
  return unlessEmpty {} .file { fileTypes, minLength, maxLength }

/-- Reads the restrictions that fit a type. What declares no type is a text. -/
def read (entries : Entries) (type : Option DataType) : Except Error (Option Restrictions) :=
  match type.elim (some ScalarType.string) DataType.scalar? with
  | some .string => readString entries
  | some .number | some .integer => readNumber entries
  | some .file => readFile entries
  | _ => .ok none

end Restrictions

namespace Example

/-- An example that is only a value. -/
def ofValue (identifier : String) (value : Option Tree) : Example :=
  ⟨identifier, none, none, value, none, none⟩

/-- Reads an example: the text of an included file, a mapping that has the value in a field, or the
value itself. -/
def read (source : Source) (identifier : String) (tree : Tree) : Reading Example :=
  if isInclude tree then do
    return ofValue identifier (some (.string (← source.readText tree)))
  else
    match tree with
    | .mapping entries =>
      if (Entries.get? entries "value").isSome then do
        let displayName ← Field.text entries "displayName" source
        let description ← Field.text entries "description" source
        let strict ← Field.boolean entries "strict"
        return { identifier, displayName, description
                 value := Entries.field? entries "value"
                 strict
                 annotations := annotationsOf entries }
      else pure (ofValue identifier (some tree))
    | tree => pure (ofValue identifier (given? tree))

/-- Reads the `example` field of a node. -/
def readSingle (source : Source) (entries : Entries) : Reading (List Example) :=
  match Entries.field? entries "example" with
  | none => pure []
  | some tree => do return [← read source "example" tree]

/-- Reads the `examples` field of a node. -/
def readNamed (source : Source) (entries : Entries) : Reading (List Example) :=
  match Entries.field? entries "examples" with
  | none => pure []
  | some (.mapping named) => readEntries "Example" (read source) named
  | some other => Reading.fail (.unexpected "examples" "a mapping" other)

/-- Reads the examples of a node. -/
def readAll (source : Source) (entries : Entries) : Reading (Block Example) := do
  let single ← readSingle source entries
  let named ← readNamed source entries
  return Block.ofList (single ++ named)

end Example

namespace Facets

/-- The facets of a type expression. -/
def ofExpression (expression : String) : Facets := { type := some (DataType.ofString expression) }

/-- Reads the facets of a node whose type is known. What else the node has is read before the
examples. -/
def read {α : Type} (source : Source) (entries : Entries) (type : Option DataType)
    (others : Reading α) : Reading (Facets × α) := do
  let restrictions ← Restrictions.read entries type
  let displayName ← Field.text entries "displayName" source
  let description ← Field.text entries "description" source
  let admitted ← Field.strings entries "enum"
  let others ← others
  let examples ← Example.readAll source entries
  return ({ type, restrictions, displayName, description
            default := Entries.field? entries "default"
            admitted, examples
            annotations := annotationsOf entries }, others)

end Facets

namespace Property

/-- Reads a property from the entries of a mapping. -/
def ofEntries (source : Source) (name : String) (entries : Entries) : Reading Property := do
  let type ← DataType.ofTree? (some "type") (.mapping entries)
  let required ← Field.boolean entries "required"
  let (facets, ()) ← Facets.read source entries type (pure ())
  return { name, required, facets }

/-- Reads a property. -/
def read (source : Source) (name : String) (tree : Tree) : Reading Property := do
  let slot ← source.openSlot none tree
  match slot.content with
  | .null => return { name }
  | .string expression => return { name, facets := .ofExpression expression }
  | .mapping entries => ofEntries slot.origin name entries
  | other => Reading.fail (.unexpected name "a property declaration" other)

/-- Reads a block of properties. -/
def readAll (source : Source) : Option Tree → Reading (Block Property) :=
  readBlock source "properties" "Property" read

end Property

namespace TypeDeclaration

/-- The type of a declaration. A mapping that declares the type `array` and items declares arrays of
them. -/
def typeOf (declared items : Option DataType) : Option DataType :=
  match declared, items with
  | some (.custom "array"), some items => some (.array items)
  | declared, _ => declared

/-- Reads the facets of object types. -/
def readObject (source : Source) (entries : Entries) : Reading ObjectFacets := do
  let properties ← Property.readAll source (Entries.field? entries "properties")
  let minProperties ← Field.natural entries "minProperties"
  let maxProperties ← Field.natural entries "maxProperties"
  let additionalProperties ← Field.boolean entries "additionalProperties"
  let discriminator ← Field.string entries "discriminator"
  let discriminatorValue ← Field.string entries "discriminatorValue"
  return { properties, minProperties, maxProperties, additionalProperties, discriminator
           discriminatorValue }

/-- Reads the facets of array types. -/
def readArray (entries : Entries) (items : Option DataType) : Except Error ArrayFacets := do
  let minItems ← Field.natural entries "minItems"
  let maxItems ← Field.natural entries "maxItems"
  let uniqueItems ← Field.boolean entries "uniqueItems"
  return { items, minItems, maxItems, uniqueItems }

/-- Reads the facets that are particular to types. -/
def readOthers (source : Source) (entries : Entries) (items : Option DataType) :
    Reading (ObjectFacets × ArrayFacets × Block Property) := do
  let object ← readObject source entries
  let array ← readArray entries items
  let ownFacets ← Property.readAll source (Entries.field? entries "facets")
  return (object, array, ownFacets)

/-- Reads a type from the entries of a mapping. -/
def ofEntries (source : Source) (name : String) (entries : Entries) : Reading TypeDeclaration := do
  let items ← DataType.ofTree? (some "type") ((Entries.field? entries "items").getD .null)
  let declared ← DataType.ofTree? (some "type") (.mapping entries)
  let (facets, object, array, ownFacets) ←
    Facets.read source entries (typeOf declared items) (readOthers source entries items)
  return { name, facets, object, array, ownFacets }

/-- Reads a declaration of a type. -/
def read (source : Source) (name : String) (tree : Tree) : Reading TypeDeclaration := do
  let slot ← source.openSlot none tree
  match slot.content with
  | .null => return { name }
  | .string expression => return { name, facets := .ofExpression expression }
  | .mapping entries => ofEntries slot.origin name entries
  | other => Reading.fail (.unexpected name "a type declaration" other)

/-- Reads a block of types. -/
def readAll (source : Source) : Option Tree → Reading (Block TypeDeclaration) :=
  readBlock source "types" "Type" read

end TypeDeclaration

namespace AnnotationKind

/-- Reads the name of a shape. -/
def readShape (name : String) : Except Error AnnotationShape :=
  match AnnotationShape.ofName? name with
  | some shape => .ok shape
  | none => .error (.invalidValue "annotation type" name)

/-- Reads a shape, or a choice of shapes with bars between them. -/
def ofExpression (expression : String) : Except Error AnnotationKind := do
  let names := (Text.splitOn '|' expression.toList).map fun name => String.ofList (Text.trim name)
  match ← names.mapM readShape with
  | [shape] => return .single shape
  | shapes => return .choice shapes

/-- Reads a choice of shapes from a sequence of names. -/
def ofItems (items : List Tree) : Except Error AnnotationKind := do
  let shapes ← items.mapM fun
    | .string name => readShape name
    | other => .error (.unexpected "type" "an annotation type name" other)
  return .choice shapes

/-- Reads the kind of a mapping from its type; one without a type takes a mapping if it has
properties, else a text. -/
def ofField (type : Option Tree) (hasProperties : Bool) : Except Error AnnotationKind :=
  match type with
  | some (.string expression) => ofExpression expression
  | some (.sequence items) => ofItems items
  | some other => .error (.unexpected "type" "an annotation type expression" other)
  | none => .ok (.single (if hasProperties then .properties else .string))

end AnnotationKind

namespace AnnotationType

/-- Reads an annotation type from the entries of a mapping. -/
def ofEntries (source : Source) (name : String) (entries : Entries) : Reading AnnotationType := do
  let properties ← Property.readAll source (Entries.field? entries "properties")
  let kind ← AnnotationKind.ofField (Entries.field? entries "type") properties.isSome
  let displayName ← Field.text entries "displayName" source
  let description ← Field.text entries "description" source
  let allowedTargets ← Field.strings entries "allowedTargets"
  return { name, kind, displayName, description, properties, allowedTargets
           annotations := annotationsOf entries }

/-- Reads a declaration of an annotation type. -/
def read (source : Source) (name : String) : Tree → Reading AnnotationType
  | .null => return { name, kind := .single .nil }
  | .string expression => return { name, kind := ← AnnotationKind.ofExpression expression }
  | .sequence items => return { name, kind := ← AnnotationKind.ofItems items }
  | .mapping entries => ofEntries source name entries
  | other => Reading.fail (.unexpected name "an annotation type declaration" other)

/-- Reads a block of annotation types. -/
def readAll (source : Source) : Option Tree → Reading (Block AnnotationType) :=
  readBlock source "annotationTypes" "Annotation Type" fun source name tree =>
    (read source name tree).mapError (.failed .annotationType name)

end AnnotationType

end RamlDoc
