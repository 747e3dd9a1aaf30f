import RamlDoc.Model.Document

/-!
# Lookups

Finding the nodes of a block by their keys. Where several nodes have a key, the first one declared
is found.
-/

namespace RamlDoc

namespace Declarations

variable (declarations : Declarations) (name : String)

/-- The type with a given name. -/
def type? : Option TypeDeclaration := declarations.types.find? (·.name) name

/-- The trait with a given name. -/
def trait? : Option TraitDefinition := declarations.traits.find? (·.name) name

/-- The resource type with a given name. -/
def resourceType? : Option ResourceType := declarations.resourceTypes.find? (·.identifier) name

/-- The annotation type with a given name. -/
def annotationType? : Option AnnotationType := declarations.annotationTypes.find? (·.name) name

/-- The security scheme with a given name. -/
def securityScheme? : Option SecurityScheme := declarations.securitySchemes.find? (·.identifier) name

end Declarations

/-- The library that a document uses under a given name. -/
def Document.library? (document : Document) (name : String) : Option Library :=
  document.uses.find? (·.identifier) name

/-- The library that a library uses under a given name. -/
def Library.library? (library : Library) (name : String) : Option Library :=
  Block.find? (·.identifier) library.uses name

/-- The resource with a given path at the top of a document. -/
def Document.resource? (document : Document) (path : String) : Option Resource :=
  document.resources.find? (·.path) path

/-- The resource with a given path directly below a resource. -/
def Resource.resource? (resource : Resource) (path : String) : Option Resource :=
  Block.find? (·.path) resource.resources path

/-- The chapter with a given title. -/
def Document.chapter? (document : Document) (title : String) : Option Chapter :=
  document.documentation.find? (·.title) title

/-- The method of a block with a given verb. -/
def Method.withVerb? (methods : Block Method) (verb : Verb) : Option Method :=
  methods.find? (·.verb) verb

/-- The response of a block with a given status code. -/
def Response.withCode? (responses : Block Response) (code : Nat) : Option Response :=
  responses.find? (·.code) code

/-- The property of a block with a given name. -/
def Property.named? (properties : Block Property) (name : String) : Option Property :=
  properties.find? (·.name) name

/-- The parameter of a block with a given name. -/
def Parameter.named? (parameters : Block Parameter) (name : String) : Option Parameter :=
  parameters.find? (·.name) name

/-- The example of a block with a given identifier. -/
def Example.named? (examples : Block Example) (identifier : String) : Option Example :=
  examples.find? (·.identifier) identifier

/-- The annotation of a block with a given name. -/
def AnnotationUse.named? (annotations : Block AnnotationUse) (name : String) :
    Option AnnotationUse :=
  annotations.find? (·.name) name

/-- The usage of a block with a given name. -/
def Usage.named? (usages : Block Usage) (name : String) : Option Usage := usages.find? (·.name) name

end RamlDoc
