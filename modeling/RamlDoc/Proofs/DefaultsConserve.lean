import Mathlib.Data.List.Forall2
import RamlDoc.Proofs.DocumentNodes

/-!
# Defaulting is conservative

Defaults only add to a document. A node extends another of its kind if it has all that the other
has: each kind has a relation `Extends` with a `frame`, which says that nothing changes beside the
fields that it names, and a clause on what becomes of each of those. Values that are there persist,
and lists keep their elements, in their order, each extended. Of the names, only those of properties
change: they lose a question mark.

The document with its defaults extends the document (`withDefaults_conserves`). The one list that
can get lost is one of parameters of a URI that is there but empty.
-/

namespace RamlDoc

variable {α β : Type} {R : α → α → Prop}

/-! ## Values and lists -/

/-- Where there is a value there still is one, related to it. Where there is none one may appear. -/
def Persists (R : α → β → Prop) (old : Option α) (new : Option β) : Prop :=
  ∀ value ∈ old, ∃ value' ∈ new, R value value'

/-- Elements related to those of another list, in their order, and possibly more behind them. -/
def Continues (R : α → β → Prop) (items : List α) (items' : List β) : Prop :=
  ∃ related added, items' = related ++ added ∧ List.Forall₂ R items related

theorem persists_some_getD (value : Option α) (default : α) :
    Persists Eq value (some (value.getD default)) := by
  rintro _ ⟨⟩
  exact ⟨_, rfl, rfl⟩

theorem persists_or (value other : Option α) : Persists Eq value (value.or other) := by
  rintro _ ⟨⟩
  exact ⟨_, rfl, rfl⟩

theorem forall₂_map_self {change : α → α} {items : List α}
    (h : ∀ item ∈ items, R item (change item)) :
    List.Forall₂ R items (items.map change) :=
  List.forall₂_map_right_iff.2 (List.forall₂_same.2 h)

theorem rel_mapElements {change : α → α} {block : Block α}
    (h : ∀ item ∈ block.elements, R item (change item)) :
    Option.Rel (List.Forall₂ R) block (block.mapElements change) := by
  cases block with
  | none => exact .none
  | some items => exact .some (forall₂_map_self h)

theorem rel_map {change : α → α} (h : ∀ value, R value (change value)) (value : Option α) :
    Option.Rel R value (value.map change) := by
  cases value with
  | none => exact .none
  | some value => exact .some (h value)

/-! ## Declarations -/

structure Example.Extends (old new : Example) : Prop where
  frame : { new with strict := old.strict } = old
  strict : Persists Eq old.strict new.strict

theorem Example.extends_withDefaults (ex : Example) : ex.Extends ex.withDefaults where
  frame := rfl
  strict := persists_some_getD _ _

/-- Restrictions of the same kind that have all that others have. -/
inductive Restrictions.Extends : Restrictions → Restrictions → Prop
  | string {old new : StringRestrictions} (pattern : new.pattern = old.pattern)
      (minLength : Persists Eq old.minLength new.minLength)
      (maxLength : Persists Eq old.maxLength new.maxLength) : Extends (.string old) (.string new)
  | number (restrictions : NumberRestrictions) :
      Extends (.number restrictions) (.number restrictions)
  | file {old new : FileRestrictions} (fileTypes : Persists Eq old.fileTypes new.fileTypes)
      (minLength : Persists Eq old.minLength new.minLength)
      (maxLength : Persists Eq old.maxLength new.maxLength) : Extends (.file old) (.file new)

theorem Restrictions.extends_withDefaults (restrictions : Restrictions) :
    restrictions.Extends restrictions.withDefaults := by
  cases restrictions with
  | string r => exact .string rfl (persists_some_getD _ _) (persists_some_getD _ _)
  | number r => exact .number r
  | file r =>
    exact .file (persists_some_getD _ _) (persists_some_getD _ _) (persists_some_getD _ _)

structure Facets.Extends (old new : Facets) : Prop where
  frame :
    { new with type := old.type, restrictions := old.restrictions, examples := old.examples } = old
  type : Persists Eq old.type new.type
  restrictions : Persists Restrictions.Extends old.restrictions new.restrictions
  examples : Option.Rel (List.Forall₂ Example.Extends) old.examples new.examples

theorem Facets.extends_withDefaults (facets : Facets) (implied : DataType) :
    facets.Extends (facets.withDefaults implied) where
  frame := rfl
  type := persists_some_getD _ _
  restrictions restrictions h := by
    refine ⟨restrictions.withDefaults, ?_, restrictions.extends_withDefaults⟩
    rw [Option.mem_def] at h
    simp [withDefaults, Restrictions.defaulted, h]
  examples := rel_mapElements fun ex _ => ex.extends_withDefaults

/-- A property that has all that another has, but for one question mark at the end of the name. -/
structure Property.Extends (old new : Property) : Prop where
  marked : ['?'] <:+ old.name.toList → old.name = new.name ++ "?"
  unmarked : ¬['?'] <:+ old.name.toList → old.name = new.name
  required : Persists Eq old.required new.required
  facets : old.facets.Extends new.facets

theorem Property.extends_withDefaults (property : Property) :
    property.Extends property.withDefaults where
  marked h := by
    obtain ⟨front, hfront⟩ := h
    rw [withDefaults, nameAndMark_of_suffix hfront.symm, ← String.toList_inj]
    simp [← hfront]
  unmarked h := by rw [withDefaults, nameAndMark_of_not_suffix h]
  required := persists_some_getD _ _
  facets := property.facets.extends_withDefaults _

structure TypeDeclaration.Extends (old new : TypeDeclaration) : Prop where
  frame : { new with facets := old.facets, object := old.object, ownFacets := old.ownFacets } = old
  facets : old.facets.Extends new.facets
  objectFrame :
    { new.object with
      properties := old.object.properties
      discriminatorValue := old.object.discriminatorValue } = old.object
  properties :
    Option.Rel (List.Forall₂ Property.Extends) old.object.properties new.object.properties
  discriminatorValue : Persists Eq old.object.discriminatorValue new.object.discriminatorValue
  ownFacets : Option.Rel (List.Forall₂ Property.Extends) old.ownFacets new.ownFacets

theorem TypeDeclaration.extends_withDefaults (type : TypeDeclaration) :
    type.Extends type.withDefaults where
  frame := rfl
  facets := type.facets.extends_withDefaults _
  objectFrame := rfl
  properties := rel_mapElements fun property _ => property.extends_withDefaults
  discriminatorValue := persists_or _ _
  ownFacets := rel_mapElements fun property _ => property.extends_withDefaults

structure AnnotationType.Extends (old new : AnnotationType) : Prop where
  frame : { new with properties := old.properties } = old
  properties : Option.Rel (List.Forall₂ Property.Extends) old.properties new.properties

theorem AnnotationType.extends_withDefaults (type : AnnotationType) :
    type.Extends type.withDefaults where
  frame := rfl
  properties := rel_mapElements fun property _ => property.extends_withDefaults

/-! ## Operations -/

structure Parameter.Extends (old new : Parameter) : Prop where
  frame : { new with type := old.type, required := old.required, examples := old.examples } = old
  type : Persists Eq old.type new.type
  required : Persists Eq old.required new.required
  examples : Option.Rel (List.Forall₂ Example.Extends) old.examples new.examples

theorem Parameter.extends_withDefaults (parameter : Parameter) :
    parameter.Extends parameter.withDefaults where
  frame := rfl
  type := persists_some_getD _ _
  required := persists_some_getD _ _
  examples := rel_mapElements fun ex _ => ex.extends_withDefaults

/-- Parameters are lost only where a list of them is there but empty. -/
theorem Parameter.persists_blockForTemplate {declared : Block Parameter} (h : declared ≠ some [])
    (names : List String) :
    Persists (Continues Extends) declared (blockForTemplate declared names) := by
  rintro parameters ⟨⟩
  have hparameters : parameters ≠ [] := fun hnil => h (congrArg some hnil)
  refine ⟨(parameters ++ added (some parameters) names).map withDefaults, ?_,
    parameters.map withDefaults, (added (some parameters) names).map withDefaults,
    List.map_append, forall₂_map_self fun parameter _ => parameter.extends_withDefaults⟩
  rw [blockForTemplate_eq, Block.ofList, if_neg (by simp [hparameters])]
  rfl

structure Payload.Extends (old new : Payload) : Prop where
  frame : { new with properties := old.properties, examples := old.examples } = old
  properties : Option.Rel (List.Forall₂ Property.Extends) old.properties new.properties
  examples : Option.Rel (List.Forall₂ Example.Extends) old.examples new.examples

theorem Payload.extends_withDefaults (payload : Payload) :
    payload.Extends payload.withDefaults where
  frame := rfl
  properties := rel_mapElements fun property _ => property.extends_withDefaults
  examples := rel_mapElements fun ex _ => ex.extends_withDefaults

structure MediaTypeBody.Extends (old new : MediaTypeBody) : Prop where
  identifier : new.identifier = old.identifier
  payload : old.payload.Extends new.payload

theorem MediaTypeBody.extends_withDefaults (body : MediaTypeBody) :
    body.Extends body.withDefaults where
  identifier := rfl
  payload := body.payload.extends_withDefaults

/-- A body that has all that another has. Media types may appear. -/
structure Body.Extends (old new : Body) : Prop where
  payload : old.payload.Extends new.payload
  mediaTypes : Persists (List.Forall₂ MediaTypeBody.Extends) old.mediaTypes new.mediaTypes

theorem Body.extends_withDefaults (inherited : Inherited) (body : Body) :
    body.Extends (body.withDefaults inherited) where
  payload := body.payload.extends_withDefaults
  mediaTypes mediaTypes h := by
    refine ⟨mediaTypes.map MediaTypeBody.withDefaults, ?_,
      forall₂_map_self fun mediaType _ => mediaType.extends_withDefaults⟩
    rw [Option.mem_def] at h
    simp [withDefaults, h]

structure Response.Extends (old new : Response) : Prop where
  frame : { new with headers := old.headers, body := old.body } = old
  headers : Option.Rel (List.Forall₂ Parameter.Extends) old.headers new.headers
  body : Option.Rel Body.Extends old.body new.body

theorem Response.extends_withDefaults (inherited : Inherited) (response : Response) :
    response.Extends (response.withDefaults inherited) where
  frame := rfl
  headers := rel_mapElements fun parameter _ => parameter.extends_withDefaults
  body := rel_map (Body.extends_withDefaults inherited) _

structure Exchange.Extends (old new : Exchange) : Prop where
  headers : Option.Rel (List.Forall₂ Parameter.Extends) old.headers new.headers
  queryParameters :
    Option.Rel (List.Forall₂ Property.Extends) old.queryParameters new.queryParameters
  queryString : Option.Rel Payload.Extends old.queryString new.queryString
  responses : Option.Rel (List.Forall₂ Response.Extends) old.responses new.responses

theorem Exchange.extends_withDefaults (inherited : Inherited) (exchange : Exchange) :
    exchange.Extends (exchange.withDefaults inherited) where
  headers := rel_mapElements fun parameter _ => parameter.extends_withDefaults
  queryParameters := rel_mapElements fun property _ => property.extends_withDefaults
  queryString := rel_map Payload.extends_withDefaults _
  responses := rel_mapElements fun response _ => response.extends_withDefaults inherited

/-- A method that has all that another has. Protocols may appear. -/
structure Method.Extends (old new : Method) : Prop where
  frame : { new with exchange := old.exchange, body := old.body, protocols := old.protocols } = old
  exchange : old.exchange.Extends new.exchange
  body : Option.Rel Body.Extends old.body new.body
  protocols : Persists Eq old.protocols new.protocols

theorem Method.extends_withDefaults (inherited : Inherited) (method : Method) :
    method.Extends (method.withDefaults inherited) where
  frame := rfl
  exchange := method.exchange.extends_withDefaults inherited
  body := rel_map (Body.extends_withDefaults inherited) _
  protocols := persists_some_getD _ _

/-! ## Templates, security schemes and libraries -/

structure TraitDefinition.Extends (old new : TraitDefinition) : Prop where
  frame : { new with exchange := old.exchange, body := old.body } = old
  exchange : old.exchange.Extends new.exchange
  body : Option.Rel Body.Extends old.body new.body

theorem TraitDefinition.extends_withDefaults (inherited : Inherited) (trait : TraitDefinition) :
    trait.Extends (trait.withDefaults inherited) where
  frame := rfl
  exchange := trait.exchange.extends_withDefaults inherited
  body := rel_map (Body.extends_withDefaults inherited) _

structure ResourceType.Extends (old new : ResourceType) : Prop where
  frame : { new with methods := old.methods, uriParameters := old.uriParameters } = old
  methods : Option.Rel (List.Forall₂ Method.Extends) old.methods new.methods
  uriParameters : Option.Rel (List.Forall₂ Parameter.Extends) old.uriParameters new.uriParameters

theorem ResourceType.extends_withDefaults (inherited : Inherited) (type : ResourceType) :
    type.Extends (type.withDefaults inherited) where
  frame := rfl
  methods := rel_mapElements fun method _ => method.extends_withDefaults inherited
  uriParameters := rel_mapElements fun parameter _ => parameter.extends_withDefaults

structure SecurityScheme.Extends (old new : SecurityScheme) : Prop where
  frame : { new with describedBy := old.describedBy } = old
  describedBy :
    Option.Rel (fun old new : SecurityDescription =>
      old.exchange.Extends new.exchange ∧ new.annotations = old.annotations)
      old.describedBy new.describedBy

theorem SecurityScheme.extends_withDefaults (inherited : Inherited) (scheme : SecurityScheme) :
    scheme.Extends (scheme.withDefaults inherited) where
  frame := rfl
  describedBy :=
    rel_map (fun description => ⟨description.exchange.extends_withDefaults inherited, rfl⟩) _

structure Declarations.Extends (old new : Declarations) : Prop where
  types : Option.Rel (List.Forall₂ TypeDeclaration.Extends) old.types new.types
  traits : Option.Rel (List.Forall₂ TraitDefinition.Extends) old.traits new.traits
  resourceTypes : Option.Rel (List.Forall₂ ResourceType.Extends) old.resourceTypes new.resourceTypes
  annotationTypes :
    Option.Rel (List.Forall₂ AnnotationType.Extends) old.annotationTypes new.annotationTypes
  securitySchemes :
    Option.Rel (List.Forall₂ SecurityScheme.Extends) old.securitySchemes new.securitySchemes

theorem Declarations.extends_withDefaults (inherited : Inherited) (declarations : Declarations) :
    declarations.Extends (declarations.withDefaults inherited) where
  types := rel_mapElements fun type _ => type.extends_withDefaults
  traits := rel_mapElements fun trait _ => trait.extends_withDefaults inherited
  resourceTypes := rel_mapElements fun type _ => type.extends_withDefaults inherited
  annotationTypes := rel_mapElements fun type _ => type.extends_withDefaults
  securitySchemes := rel_mapElements fun scheme _ => scheme.extends_withDefaults inherited

/-- A library that has all that another has, and so have the libraries it uses. -/
inductive Library.Extends : Library → Library → Prop
  | intro {old new : Library}
      (frame : { new with declarations := old.declarations, uses := old.uses } = old)
      (declarations : old.declarations.Extends new.declarations)
      (uses : Option.Rel (List.Forall₂ Extends) old.uses new.uses) : Extends old new

theorem Library.extends_withDefaults (inherited : Inherited) (library : Library) :
    library.Extends (library.withDefaults inherited) := by
  induction library using Library.induction_on_uses with
  | step library ih =>
    obtain ⟨identifier, usage, declarations, uses⟩ := library
    rw [withDefaults, blockWithDefaults_eq]
    exact .intro rfl (declarations.extends_withDefaults inherited) (rel_mapElements ih)

/-! ## Resources and documents -/

/-- A resource that has all that another has, and so have the resources in it. -/
inductive Resource.Extends : Resource → Resource → Prop
  | intro {old new : Resource}
      (frame :
        { new with
          methods := old.methods
          resources := old.resources
          uriParameters := old.uriParameters } = old)
      (methods : Option.Rel (List.Forall₂ Method.Extends) old.methods new.methods)
      (resources : Option.Rel (List.Forall₂ Extends) old.resources new.resources)
      (uriParameters :
        Persists (Continues Parameter.Extends) old.uriParameters new.uriParameters) :
      Extends old new

structure Document.Extends (old new : Document) : Prop where
  frame :
    { new with
      baseUriParameters := old.baseUriParameters
      protocols := old.protocols
      declarations := old.declarations
      uses := old.uses
      resources := old.resources } = old
  baseUriParameters :
    Persists (Continues Parameter.Extends) old.baseUriParameters new.baseUriParameters
  protocols : Persists Eq old.protocols new.protocols
  declarations : old.declarations.Extends new.declarations
  uses : Option.Rel (List.Forall₂ Library.Extends) old.uses new.uses
  resources : Option.Rel (List.Forall₂ Resource.Extends) old.resources new.resources

/-- The parameters of the URI or the path that a node has of its own. -/
def Document.Node.templateParameters : Document.Node → Block Parameter
  | document d => d.baseUriParameters
  | resource r => r.uriParameters
  | _ => none

theorem Resource.extends_withDefaults (inherited : Inherited) {resource : Resource}
    (h : ∀ node, Document.Node.Reaches (.resource resource) node →
      node.templateParameters ≠ some []) :
    resource.Extends (resource.withDefaults inherited) := by
  induction resource using Resource.induction_on_children with
  | step resource ih =>
    have hresources : ∀ child ∈ resource.children,
        child.Extends (child.withDefaults inherited) := by
      intro child hchild
      refine ih child hchild fun node hnode => h node (.head ?_ hnode)
      simp only [Document.Node.children, List.mem_append]
      exact .inl (.inr (List.mem_map_of_mem hchild))
    have huriParameters : resource.uriParameters ≠ some [] := h _ .refl
    obtain ⟨path, displayName, description, annotations, methods, resources, traits, resourceType,
      securedBy, uriParameters⟩ := resource
    rw [withDefaults, blockWithDefaults_eq]
    exact .intro rfl (rel_mapElements fun method _ => method.extends_withDefaults inherited)
      (rel_mapElements hresources) (Parameter.persists_blockForTemplate huriParameters _)

/-- **Defaulting is conservative**: a document with its defaults has all that the document has,
unless the document or a resource has a list of parameters that is there but empty. -/
theorem Document.withDefaults_conserves {document : Document}
    (h : ∀ node, Node.Reaches (.document document) node → node.templateParameters ≠ some [])
    (inherited : Inherited) : document.Extends (document.withDefaults inherited) where
  frame := rfl
  baseUriParameters := Parameter.persists_blockForTemplate (h _ .refl) _
  protocols := by
    intro protocols hprotocols
    refine ⟨protocols, ?_, rfl⟩
    rw [Option.mem_def] at hprotocols ⊢
    simp [withDefaults, effectiveProtocols, hprotocols]
  declarations := document.declarations.extends_withDefaults inherited
  uses := rel_mapElements fun library _ => library.extends_withDefaults inherited
  resources := rel_mapElements fun resource hresource => by
    refine resource.extends_withDefaults inherited fun node hnode => h node (.head ?_ hnode)
    simp only [Node.children, List.mem_append]
    exact .inl (.inr (List.mem_map_of_mem hresource))

namespace Document

/-- A document with a resource that declares one of the two parameters in its path. -/
def itemsOfOrders : Document where
  title := "Orders"
  resources := some [{ path := "/orders/{id}/{item}", uriParameters := some [{ name := "item" }] }]

/-- The declared parameter stays the first one. -/
theorem itemsOfOrders_extends_defaulted :
    (∀ node, Node.Reaches (.document itemsOfOrders) node → node.templateParameters ≠ some []) ∧
      itemsOfOrders.Extends itemsOfOrders.defaulted := by
  have hparameters : ∀ node, Node.Reaches (.document itemsOfOrders) node →
      node.templateParameters ≠ some [] := by
    refine Node.forall_reaches_of_children rfl nofun (List.forall_mem_singleton.2 ?_)
    refine Node.forall_reaches_of_children rfl nofun (List.forall_mem_singleton.2 ?_)
    exact Node.forall_reaches_of_children rfl nofun (List.forall_mem_nil _)
  exact ⟨hparameters, withDefaults_conserves hparameters _⟩

end Document

end RamlDoc
