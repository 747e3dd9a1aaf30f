import RamlDoc.Model.Annotation
import RamlDoc.Read.Field

/-!
# Usages and annotations

Reading what a node refers to, the templates and schemes in its `is` and `securedBy` fields, and what
is written on it, the entries whose keys are names in parentheses.
-/

namespace RamlDoc

open Yaml

/-- Reads a reference to a template or a scheme: a name, or a mapping from the name to
parameters. -/
def readUsage (key : String) : Tree → Except Error Usage
  | .string name => .ok ⟨name, none⟩
  | .mapping [(name, parameters)] => do
    let name ← keyText "Usage" name
    match parameters with
    | .null => .ok ⟨name, none⟩
    | .mapping parameters => .ok ⟨name, some parameters⟩
    | other => .error (.unexpected name "a mapping of parameters" other)
  | other => .error (.unexpected key "a name or a single-entry mapping" other)

/-- The elements of a field that holds a sequence or a single value. -/
def elementsOf : Tree → List Tree
  | .sequence items => items
  | single => [single]

/-- Reads a list of references. -/
def readUsages (read : Tree → Except Error Usage) : Option Tree → Except Error (Block Usage)
  | none => .ok none
  | some tree => Block.ofList <$> (elementsOf tree).mapM read

/-- Reads the `is` field of a node. -/
def readTraitUsages (entries : Entries) : Except Error (Block Usage) :=
  readUsages (readUsage "is") (Entries.field? entries "is")

/-- Reads an element of a `securedBy` list; null allows access without a scheme. -/
def readSecurityUsage : Tree → Except Error Usage
  | .null => .ok ⟨Usage.anonymous, none⟩
  | tree => readUsage "securedBy" tree

/-- Reads the `securedBy` field of a node. -/
def readSecuredBy (entries : Entries) : Except Error (Block Usage) :=
  readUsages readSecurityUsage (Entries.field? entries "securedBy")

/-- The name of the annotation that a key stands for: what is in the parentheses around it. -/
def annotationName? (key : String) : Option String :=
  ((Text.afterStart? ['('] key.toList).bind (Text.beforeEnd? [')'])).bind fun name =>
    if name.isEmpty then none else some (String.ofList name)

/-- A value, unless it is null. -/
def given? (tree : Tree) : Option Tree := if tree.isNull then none else some tree

/-- The annotation that an entry stands for, if it is one. -/
def annotationOf? (entry : Tree × Tree) : Option AnnotationUse :=
  (entry.1.asString?.bind annotationName?).map fun name => ⟨name, given? entry.2⟩

/-- The annotations among the entries of a node. -/
def annotationsOf (entries : Entries) : Block AnnotationUse :=
  Block.ofList (entries.filterMap annotationOf?)

end RamlDoc
