import RamlDoc.Model.Block
import RamlDoc.Text.Blank
import RamlDoc.Yaml.Tree

/-!
# Annotations and usages

Any node may carry annotations, and some name a template or a security scheme that applies to them,
with parameters for it. Both keep the values they are given as YAML.
-/

namespace RamlDoc

open Yaml

/-- An annotation on a node. -/
structure AnnotationUse where
  /-- The name, without the parentheses of its key. -/
  name : String
  value : Option Tree
deriving DecidableEq, Repr

namespace AnnotationUse

/-- The value of an annotation that is a single text. -/
def singleValue? (note : AnnotationUse) : Option String := note.value.bind Tree.asString?

/-- The value of an annotation that is a mapping of parameters. -/
def parameters? (note : AnnotationUse) : Option Entries :=
  note.value.bind Tree.asEntries?

end AnnotationUse

/-- A use of a trait, a resource type or a security scheme, by name and with parameters. -/
structure Usage where
  name : String
  parameters : Option Entries
deriving DecidableEq, Repr

namespace Usage

/-- The name under which a `securedBy` list allows access without a scheme. -/
def anonymous : String := "null"

/-- Whether a use in a `securedBy` list allows access without a scheme. -/
def isAnonymous (usage : Usage) : Bool := usage.name = anonymous

/-- A parameter that a usage passes on. -/
def parameter? (usage : Usage) (name : String) : Option Tree :=
  usage.parameters.bind fun parameters => parameters.get? name

end Usage

/-- What the value of an annotation may be. -/
inductive AnnotationShape where
  /-- No value. -/
  | nil
  /-- A text. -/
  | string
  /-- A mapping that the properties of the annotation type describe. -/
  | properties
deriving DecidableEq, Repr

namespace AnnotationShape

/-- The name of a shape. -/
def name : AnnotationShape → String
  | .nil => "nil"
  | .string => "string"
  | .properties => "properties"

/-- The shape with a given name. -/
def ofName? (s : String) : Option AnnotationShape :=
  match Text.trimmed s with
  | "nil" => some .nil
  | "string" => some .string
  | "object" | "properties" => some .properties
  | _ => none

end AnnotationShape

/-- The shape, or the choice of shapes, that an annotation type declares. -/
inductive AnnotationKind where
  | single (shape : AnnotationShape)
  | choice (shapes : List AnnotationShape)
deriving DecidableEq, Repr

end RamlDoc
