import RamlDoc.Defaults.Operation
import RamlDoc.Model.Document

/-!
# Defaults of documents

The defaulted view of a document: a document like it in which every value that has a default is
given. Template names of paths and of the base URI that nothing declares become required texts.
-/

namespace RamlDoc

namespace TraitDefinition

/-- The trait with its defaults. -/
def withDefaults (inherited : Inherited) (trait : TraitDefinition) : TraitDefinition :=
  { trait with
    exchange := trait.exchange.withDefaults inherited
    body := trait.body.map (Body.withDefaults inherited) }

end TraitDefinition

namespace ResourceType

/-- The resource type with its defaults. -/
def withDefaults (inherited : Inherited) (type : ResourceType) : ResourceType :=
  { type with
    methods := type.methods.mapElements (Method.withDefaults inherited)
    uriParameters := type.uriParameters.mapElements Parameter.withDefaults }

end ResourceType

namespace SecurityScheme

/-- The security scheme with its defaults. -/
def withDefaults (inherited : Inherited) (scheme : SecurityScheme) : SecurityScheme :=
  { scheme with
    describedBy := scheme.describedBy.map fun description =>
      { description with exchange := description.exchange.withDefaults inherited } }

end SecurityScheme

namespace Declarations

/-- The declarations with their defaults. -/
def withDefaults (inherited : Inherited) (declarations : Declarations) : Declarations where
  types := declarations.types.mapElements TypeDeclaration.withDefaults
  traits := declarations.traits.mapElements (TraitDefinition.withDefaults inherited)
  resourceTypes := declarations.resourceTypes.mapElements (ResourceType.withDefaults inherited)
  annotationTypes := declarations.annotationTypes.mapElements AnnotationType.withDefaults
  securitySchemes :=
    declarations.securitySchemes.mapElements (SecurityScheme.withDefaults inherited)

end Declarations

namespace Library

mutual

/-- The library with its defaults. -/
def withDefaults (inherited : Inherited) : Library → Library
  | ⟨identifier, usage, declarations, uses⟩ =>
    ⟨identifier, usage, declarations.withDefaults inherited, blockWithDefaults inherited uses⟩

/-- The libraries that a node uses, with their defaults. -/
def blockWithDefaults (inherited : Inherited) : Option (List Library) → Option (List Library)
  | none => none
  | some libraries => some (listWithDefaults inherited libraries)

/-- The libraries of a list with their defaults. -/
def listWithDefaults (inherited : Inherited) : List Library → List Library
  | [] => []
  | library :: libraries =>
    withDefaults inherited library :: listWithDefaults inherited libraries

end

theorem listWithDefaults_eq (inherited : Inherited) (libraries : List Library) :
    listWithDefaults inherited libraries = libraries.map (withDefaults inherited) := by
  induction libraries with
  | nil => rfl
  | cons library libraries ih => simp [listWithDefaults, ih]

theorem blockWithDefaults_eq (inherited : Inherited) (block : Option (List Library)) :
    blockWithDefaults inherited block = Block.mapElements (withDefaults inherited) block := by
  cases block <;> simp [blockWithDefaults, Block.mapElements, listWithDefaults_eq]

end Library

namespace Parameter

/-- The parameter that a template name stands for. -/
def ofTemplateName (name : String) : Parameter :=
  { name, type := some (.scalar .string), required := some true }

@[simp] theorem name_ofTemplateName (name : String) : (ofTemplateName name).name = name := rfl

@[simp] theorem withDefaults_ofTemplateName (name : String) :
    (ofTemplateName name).withDefaults = ofTemplateName name := rfl

/-- Parameters, followed by one for each name that none has. -/
def complete : (parameters : List Parameter) → (names : List String) → List Parameter
  | parameters, [] => parameters
  | parameters, name :: names =>
    if parameters.any fun parameter => parameter.name = name then complete parameters names
    else complete (parameters ++ [ofTemplateName name]) names

/-- The declared parameters with their defaults, and those of the template names. -/
def blockForTemplate (declared : Block Parameter) (names : List String) : Block Parameter :=
  Block.ofList (complete (declared.elements.map withDefaults) names)

end Parameter

namespace Resource

mutual

/-- The resource with its defaults. -/
def withDefaults (inherited : Inherited) : Resource → Resource
  | ⟨path, displayName, description, annotations, methods, resources, traits, resourceType,
      securedBy, uriParameters⟩ =>
    ⟨path, displayName, description, annotations,
      methods.mapElements (Method.withDefaults inherited),
      blockWithDefaults inherited resources, traits, resourceType, securedBy,
      Parameter.blockForTemplate uriParameters (templateNames path)⟩

/-- The resources below a node, with their defaults. -/
def blockWithDefaults (inherited : Inherited) : Option (List Resource) → Option (List Resource)
  | none => none
  | some resources => some (listWithDefaults inherited resources)

/-- The resources of a list with their defaults. -/
def listWithDefaults (inherited : Inherited) : List Resource → List Resource
  | [] => []
  | resource :: resources =>
    withDefaults inherited resource :: listWithDefaults inherited resources

end

theorem listWithDefaults_eq (inherited : Inherited) (resources : List Resource) :
    listWithDefaults inherited resources = resources.map (withDefaults inherited) := by
  induction resources with
  | nil => rfl
  | cons resource resources ih => simp [listWithDefaults, ih]

theorem blockWithDefaults_eq (inherited : Inherited) (block : Option (List Resource)) :
    blockWithDefaults inherited block = Block.mapElements (withDefaults inherited) block := by
  cases block <;> simp [blockWithDefaults, Block.mapElements, listWithDefaults_eq]

end Resource

namespace Document

/-- What stands before the first occurrence of `://`. -/
def schemeOf? : (uri : List Char) → Option (List Char)
  | [] => none
  | c :: rest =>
    if (Text.afterStart? "://".toList (c :: rest)).isSome then some []
    else (schemeOf? rest).map (c :: ·)

/-- The protocol that a URI starts with. -/
def protocolOf? (uri : String) : Option Protocol :=
  (schemeOf? uri.toList).bind fun scheme => Protocol.ofName? (String.ofList scheme)

/-- The declared protocols, else that of the base URI, else the usual ones. -/
def effectiveProtocols (document : Document) : List Protocol :=
  match document.protocols with
  | some protocols => protocols
  | none =>
    match document.baseUri.bind protocolOf? with
    | some protocol => [protocol]
    | none => Protocol.usual

/-- What the nodes of a document inherit. -/
def inherited (document : Document) : Inherited :=
  ⟨document.mediaTypes.getD [], document.effectiveProtocols⟩

/-- The document with its defaults, given what its nodes inherit. -/
def withDefaults (inherited : Inherited) (document : Document) : Document :=
  { document with
    baseUriParameters :=
      Parameter.blockForTemplate document.baseUriParameters
        (templateNames (document.baseUri.getD ""))
    protocols := some document.effectiveProtocols
    declarations := document.declarations.withDefaults inherited
    uses := document.uses.mapElements (Library.withDefaults inherited)
    resources := document.resources.mapElements (Resource.withDefaults inherited) }

/-- The defaulted view of a document. -/
def defaulted (document : Document) : Document := document.withDefaults document.inherited

end Document

end RamlDoc
