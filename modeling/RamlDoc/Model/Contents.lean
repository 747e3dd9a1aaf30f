import RamlDoc.Model.Document

/-!
# Contents

The types and the properties that a document holds at any position, and when two documents agree: if
they are identical and all bounds in them are numbers, since what is not a number equals nothing.
-/

namespace RamlDoc

/-- The properties and the added facets of a type. -/
def TypeDeclaration.allProperties (type : TypeDeclaration) : List Property :=
  type.object.properties.elements ++ type.ownFacets.elements

/-- The properties of a payload. -/
def Payload.allProperties (payload : Payload) : List Property := payload.properties.elements

/-- The properties of a body and of its variants. -/
def Body.allProperties (body : Body) : List Property :=
  body.payload.allProperties ++ body.mediaTypes.elements.flatMap (·.payload.allProperties)

/-- The properties in a response. -/
def Response.allProperties (response : Response) : List Property :=
  response.body.toList.flatMap Body.allProperties

/-- The properties in an exchange. -/
def Exchange.allProperties (exchange : Exchange) : List Property :=
  exchange.queryParameters.elements ++ exchange.queryString.toList.flatMap Payload.allProperties ++
    exchange.responses.elements.flatMap Response.allProperties

/-- The properties in a method. -/
def Method.allProperties (method : Method) : List Property :=
  method.exchange.allProperties ++ method.body.toList.flatMap Body.allProperties

/-- The properties in a trait. -/
def TraitDefinition.allProperties (trait : TraitDefinition) : List Property :=
  trait.exchange.allProperties ++ trait.body.toList.flatMap Body.allProperties

/-- The properties in a resource type. -/
def ResourceType.allProperties (type : ResourceType) : List Property :=
  type.methods.elements.flatMap Method.allProperties

/-- The properties in a security scheme. -/
def SecurityScheme.allProperties (scheme : SecurityScheme) : List Property :=
  scheme.describedBy.toList.flatMap (·.exchange.allProperties)

/-- The properties in declarations. -/
def Declarations.allProperties (declarations : Declarations) : List Property :=
  declarations.types.elements.flatMap TypeDeclaration.allProperties ++
    declarations.traits.elements.flatMap TraitDefinition.allProperties ++
    declarations.resourceTypes.elements.flatMap ResourceType.allProperties ++
    declarations.annotationTypes.elements.flatMap (·.properties.elements) ++
    declarations.securitySchemes.elements.flatMap SecurityScheme.allProperties

namespace Library

mutual

/-- A library and the libraries that it uses, directly or through others. -/
def all : Library → List Library
  | ⟨identifier, usage, declarations, uses⟩ =>
    ⟨identifier, usage, declarations, uses⟩ :: allOfBlock uses

/-- The libraries of a block and those that they use. -/
def allOfBlock : Option (List Library) → List Library
  | none => []
  | some libraries => allOfList libraries

/-- The libraries of a list and those that they use. -/
def allOfList : List Library → List Library
  | [] => []
  | library :: libraries => all library ++ allOfList libraries

end

end Library

namespace Document

/-- The libraries that a document uses, directly or through others. -/
def allLibraries (document : Document) : List Library := Library.allOfBlock document.uses

/-- The declarations of a document and of the libraries it uses. -/
def allDeclarations (document : Document) : List Declarations :=
  document.declarations :: document.allLibraries.map (·.declarations)

/-- The types that a document and the libraries it uses declare. -/
def allTypes (document : Document) : List TypeDeclaration :=
  document.allDeclarations.flatMap fun declarations => declarations.types.elements

/-- The properties that a document holds at any position. -/
def allProperties (document : Document) : List Property :=
  document.allDeclarations.flatMap Declarations.allProperties ++
    (Resource.visitBlock "" document.resources).flatMap fun (_, resource) =>
      resource.methods.elements.flatMap Method.allProperties

/-- The facets of all types and properties of a document. -/
def allFacets (document : Document) : List Facets :=
  document.allTypes.map (·.facets) ++ document.allProperties.map (·.facets)

end Document

/-- The bounds of restrictions that are numbers. -/
def Restrictions.bounds : Restrictions → List Binary64
  | .number r => r.minimum.toList ++ r.maximum.toList ++ r.multipleOf.toList
  | .string _ | .file _ => []

namespace Document

/-- The bounds that a document holds at any position. -/
def bounds (document : Document) : List Binary64 :=
  document.allFacets.flatMap fun facets => facets.restrictions.toList.flatMap Restrictions.bounds

/-- Whether two documents agree. -/
def agrees (first second : Document) : Bool := first = second && Binary64.nan ∉ first.bounds

end Document

end RamlDoc
