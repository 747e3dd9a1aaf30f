import Mathlib.Logic.Relation
import RamlDoc.Proofs.TemplateParameters

/-!
# The nodes of a document

A document is a tree of nodes: declarations, resources, operations and what they hold. A node
reaches the nodes in it and those that they reach (`Reaches`). Defaults go through the tree: the
nodes in a node with its defaults are those in the node itself and a few that are added, all with
their defaults (`children_withDefaults`), so whatever such a node reaches is some node with its
defaults.
-/

namespace RamlDoc

namespace Resource

theorem sizeOf_lt_of_mem_children {resource child : Resource} (h : child ∈ resource.children) :
    sizeOf child < sizeOf resource := by
  obtain ⟨_, _, _, _, _, resources, _, _, _, _⟩ := resource
  cases resources with
  | none => cases h
  | some resources =>
    have := List.sizeOf_lt_of_mem (show child ∈ resources from h)
    simp only [mk.sizeOf_spec, Option.some.sizeOf_spec]
    omega

/-- What holds of a resource whenever it holds of the resources in it holds of every resource. -/
theorem induction_on_children {P : Resource → Prop}
    (step : ∀ resource, (∀ child ∈ resource.children, P child) → P resource)
    (resource : Resource) : P resource :=
  step resource fun child h =>
    have := sizeOf_lt_of_mem_children h
    induction_on_children step child
termination_by sizeOf resource

end Resource

namespace Library

theorem sizeOf_lt_of_mem_uses {library used : Library} (h : used ∈ Block.elements library.uses) :
    sizeOf used < sizeOf library := by
  obtain ⟨_, _, _, uses⟩ := library
  cases uses with
  | none => cases h
  | some libraries =>
    have := List.sizeOf_lt_of_mem (show used ∈ libraries from h)
    simp only [mk.sizeOf_spec, Option.some.sizeOf_spec]
    omega

/-- What holds of a library whenever it holds of the libraries it uses holds of every library. -/
theorem induction_on_uses {P : Library → Prop}
    (step : ∀ library, (∀ used ∈ Block.elements library.uses, P used) → P library)
    (library : Library) : P library :=
  step library fun used h =>
    have := sizeOf_lt_of_mem_uses h
    induction_on_uses step used
termination_by sizeOf library

end Library

namespace Document

/-- A node of a document. Bodies and query strings have a payload, but it is no node of its own. -/
inductive Node where
  | document (document : Document)
  | library (library : Library)
  | type (type : TypeDeclaration)
  | annotationType (type : AnnotationType)
  | trait (trait : TraitDefinition)
  | resourceType (type : ResourceType)
  | securityScheme (scheme : SecurityScheme)
  | resource (resource : Resource)
  | method (method : Method)
  | response (response : Response)
  | body (body : Body)
  | mediaType (body : MediaTypeBody)
  | queryString (payload : Payload)
  | property (property : Property)
  /-- A header or a parameter of a URI. -/
  | parameter (parameter : Parameter)
  | sample (ex : Example)

namespace Node

/-- The nodes in a payload. -/
def ofPayload (payload : Payload) : List Node :=
  payload.properties.elements.map property ++ payload.examples.elements.map sample

/-- The nodes in an exchange. -/
def ofExchange (exchange : Exchange) : List Node :=
  exchange.headers.elements.map parameter ++ exchange.queryParameters.elements.map property ++
    exchange.queryString.toList.map queryString ++ exchange.responses.elements.map response

/-- The nodes in declarations. -/
def ofDeclarations (declarations : Declarations) : List Node :=
  declarations.types.elements.map type ++ declarations.traits.elements.map trait ++
    declarations.resourceTypes.elements.map resourceType ++
    declarations.annotationTypes.elements.map annotationType ++
    declarations.securitySchemes.elements.map securityScheme

/-- The nodes directly in a node. -/
def children : Node → List Node
  | document d => ofDeclarations d.declarations ++ d.uses.elements.map library ++
      d.resources.elements.map resource ++ d.baseUriParameters.elements.map parameter
  | library l => ofDeclarations l.declarations ++ (Block.elements l.uses).map library
  | type t => t.object.properties.elements.map property ++ t.ownFacets.elements.map property ++
      t.facets.examples.elements.map sample
  | annotationType t => t.properties.elements.map property
  | trait t => ofExchange t.exchange ++ t.body.toList.map body
  | resourceType t => t.methods.elements.map method ++ t.uriParameters.elements.map parameter
  | securityScheme s =>
    s.describedBy.toList.flatMap fun description => ofExchange description.exchange
  | resource r => r.methods.elements.map method ++ r.children.map resource ++
      r.uriParameters.elements.map parameter
  | method m => ofExchange m.exchange ++ m.body.toList.map body
  | response r => r.headers.elements.map parameter ++ r.body.toList.map body
  | body b => ofPayload b.payload ++ b.mediaTypes.elements.map mediaType
  | mediaType b => ofPayload b.payload
  | queryString p => ofPayload p
  | property p => p.facets.examples.elements.map sample
  | parameter p => p.examples.elements.map sample
  | sample _ => []

/-- A node is another or in it, at any depth. -/
def Reaches : Node → Node → Prop := Relation.ReflTransGen fun node child => child ∈ node.children

/-- The node with its defaults. -/
def withDefaults (inherited : Inherited) : Node → Node
  | document d => document (d.withDefaults inherited)
  | library l => library (l.withDefaults inherited)
  | type t => type t.withDefaults
  | annotationType t => annotationType t.withDefaults
  | trait t => trait (t.withDefaults inherited)
  | resourceType t => resourceType (t.withDefaults inherited)
  | securityScheme s => securityScheme (s.withDefaults inherited)
  | resource r => resource (r.withDefaults inherited)
  | method m => method (m.withDefaults inherited)
  | response r => response (r.withDefaults inherited)
  | body b => body (b.withDefaults inherited)
  | mediaType b => mediaType b.withDefaults
  | queryString p => queryString p.withDefaults
  | property p => property p.withDefaults
  | parameter p => parameter p.withDefaults
  | sample ex => sample ex.withDefaults

/-- The nodes that defaults add to a node: parameters for template names that none has, and variants
of a body that has none. -/
def added (inherited : Inherited) : Node → List Node
  | document d =>
    (Parameter.added d.baseUriParameters (templateNames (d.baseUri.getD ""))).map parameter
  | resource r => (Parameter.added r.uriParameters (templateNames r.path)).map parameter
  | body b =>
    if b.mediaTypes.isSome then []
    else inherited.mediaTypes.map fun identifier => mediaType ⟨identifier, b.payload⟩
  | _ => []

variable {inherited : Inherited} {node child : Node}

theorem ofPayload_withDefaults (inherited : Inherited) (payload : Payload) :
    ofPayload payload.withDefaults = (ofPayload payload).map (withDefaults inherited) := by
  simp [ofPayload, Payload.withDefaults, Function.comp_def, withDefaults]

theorem ofExchange_withDefaults (inherited : Inherited) (exchange : Exchange) :
    ofExchange (exchange.withDefaults inherited) =
      (ofExchange exchange).map (withDefaults inherited) := by
  cases h : exchange.queryString <;>
    simp [ofExchange, Exchange.withDefaults, Function.comp_def, withDefaults, h]

theorem ofDeclarations_withDefaults (inherited : Inherited) (declarations : Declarations) :
    ofDeclarations (declarations.withDefaults inherited) =
      (ofDeclarations declarations).map (withDefaults inherited) := by
  simp [ofDeclarations, Declarations.withDefaults, Function.comp_def, withDefaults]

/-- The nodes in a node with its defaults are those in the node, and the added ones, with their
defaults. -/
theorem children_withDefaults (inherited : Inherited) (node : Node) :
    (node.withDefaults inherited).children =
      (node.children ++ node.added inherited).map (withDefaults inherited) := by
  cases node with
  | document d =>
    simp [withDefaults, children, added, Document.withDefaults, ofDeclarations_withDefaults,
      Parameter.elements_blockForTemplate, Function.comp_def]
  | library l =>
    obtain ⟨identifier, usage, declarations, uses⟩ := l
    simp [withDefaults, children, added, Library.withDefaults, Library.blockWithDefaults_eq,
      ofDeclarations_withDefaults, Function.comp_def]
  | resource r =>
    obtain ⟨path, displayName, description, annotations, methods, resources, traits, resourceType,
      securedBy, uriParameters⟩ := r
    simp [withDefaults, children, added, Resource.withDefaults, Resource.blockWithDefaults_eq,
      Resource.children, Parameter.elements_blockForTemplate, Function.comp_def]
  | body b =>
    obtain ⟨payload, mediaTypes⟩ := b
    cases mediaTypes <;>
      simp [withDefaults, children, added, Body.withDefaults, ofPayload_withDefaults inherited,
        MediaTypeBody.withDefaults, Function.comp_def]
  | trait t =>
    cases h : t.body <;>
      simp [withDefaults, children, added, TraitDefinition.withDefaults, ofExchange_withDefaults, h]
  | method m =>
    cases h : m.body <;>
      simp [withDefaults, children, added, Method.withDefaults, ofExchange_withDefaults, h]
  | response r =>
    cases h : r.body <;>
      simp [withDefaults, children, added, Response.withDefaults, Function.comp_def, h]
  | securityScheme s =>
    cases h : s.describedBy <;>
      simp [withDefaults, children, added, SecurityScheme.withDefaults, ofExchange_withDefaults, h]
  | resourceType t =>
    simp [withDefaults, children, added, ResourceType.withDefaults, Function.comp_def]
  | type t =>
    simp [withDefaults, children, added, TypeDeclaration.withDefaults, Facets.withDefaults,
      Function.comp_def]
  | annotationType t =>
    simp [withDefaults, children, added, AnnotationType.withDefaults, Function.comp_def]
  | mediaType b =>
    simp [withDefaults, children, added, MediaTypeBody.withDefaults,
      ofPayload_withDefaults inherited]
  | queryString p => simp [withDefaults, children, added, ofPayload_withDefaults inherited]
  | property p =>
    simp [withDefaults, children, added, Property.withDefaults, Facets.withDefaults,
      Function.comp_def]
  | parameter p =>
    simp [withDefaults, children, added, Parameter.withDefaults, Function.comp_def]
  | sample ex => simp [withDefaults, children, added]

/-- What is reached is the node itself or reached from one in it. -/
theorem forall_reaches_of_children {P : Node → Prop} {nodes : List Node}
    (heq : node.children = nodes) (hself : P node)
    (h : ∀ child ∈ nodes, ∀ found, child.Reaches found → P found) :
    ∀ found, node.Reaches found → P found := by
  intro found hfound
  rcases hfound.cases_head with rfl | ⟨child, hchild, hfound⟩
  · exact hself
  · exact h child (heq ▸ hchild) found hfound

/-- What holds of a node whenever it holds of the nodes in it holds of every node. -/
theorem induction_on_children {P : Node → Prop}
    (step : ∀ node, (∀ child ∈ node.children, P child) → P node) (node : Node) : P node := by
  have of_children {node : Node} {nodes : List Node} (heq : node.children = nodes)
      (h : ∀ child ∈ nodes, P child) : P node := step node (heq ▸ h)
  have append {before after : List Node} (h : ∀ child ∈ before, P child)
      (h' : ∀ child ∈ after, P child) : ∀ child ∈ before ++ after, P child :=
    List.forall_mem_append.2 ⟨h, h'⟩
  have map {α : Type} {kind : α → Node} (h : ∀ item, P (kind item)) (items : List α) :
      ∀ child ∈ items.map kind, P child := List.forall_mem_map.2 fun item _ => h item
  -- From the leaves up. Only libraries and resources have nodes of their own kind in them.
  have hsample ex : P (sample ex) := of_children rfl (List.forall_mem_nil _)
  have hparameter p : P (parameter p) := of_children rfl (map hsample _)
  have hproperty p : P (property p) := of_children rfl (map hsample _)
  have hpayload p : ∀ child ∈ ofPayload p, P child := append (map hproperty _) (map hsample _)
  have hqueryString p : P (queryString p) := of_children rfl (hpayload p)
  have hmediaType b : P (mediaType b) := of_children rfl (hpayload b.payload)
  have hbody b : P (body b) := of_children rfl (append (hpayload b.payload) (map hmediaType _))
  have hresponse r : P (response r) := of_children rfl (append (map hparameter _) (map hbody _))
  have hexchange e : ∀ child ∈ ofExchange e, P child :=
    append (append (append (map hparameter _) (map hproperty _)) (map hqueryString _))
      (map hresponse _)
  have hmethod m : P (method m) := of_children rfl (append (hexchange m.exchange) (map hbody _))
  have htype t : P (type t) :=
    of_children rfl (append (append (map hproperty _) (map hproperty _)) (map hsample _))
  have htrait t : P (trait t) := of_children rfl (append (hexchange t.exchange) (map hbody _))
  have hresourceType t : P (resourceType t) :=
    of_children rfl (append (map hmethod _) (map hparameter _))
  have hannotationType t : P (annotationType t) := of_children rfl (map hproperty _)
  have hscheme s : P (securityScheme s) :=
    of_children rfl (List.forall_mem_flatMap.2 fun description _ => hexchange description.exchange)
  have hdeclarations d : ∀ child ∈ ofDeclarations d, P child :=
    append (append (append (append (map htype _) (map htrait _)) (map hresourceType _))
      (map hannotationType _)) (map hscheme _)
  have hlibrary l : P (library l) := by
    induction l using Library.induction_on_uses with
    | step l ih => exact of_children rfl (append (hdeclarations _) (List.forall_mem_map.2 ih))
  have hresource r : P (resource r) := by
    induction r using Resource.induction_on_children with
    | step r ih =>
      exact of_children rfl (append (append (map hmethod _) (List.forall_mem_map.2 ih))
        (map hparameter _))
  cases node with
  | document d =>
    exact of_children rfl (append (append (append (hdeclarations _) (map hlibrary _))
      (map hresource _)) (map hparameter _))
  | library l => exact hlibrary l
  | type t => exact htype t
  | annotationType t => exact hannotationType t
  | trait t => exact htrait t
  | resourceType t => exact hresourceType t
  | securityScheme s => exact hscheme s
  | resource r => exact hresource r
  | method m => exact hmethod m
  | response r => exact hresponse r
  | body b => exact hbody b
  | mediaType b => exact hmediaType b
  | queryString p => exact hqueryString p
  | property p => exact hproperty p
  | parameter p => exact hparameter p
  | sample ex => exact hsample ex

end Node

end Document

end RamlDoc
