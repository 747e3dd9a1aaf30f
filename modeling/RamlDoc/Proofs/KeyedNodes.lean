import RamlDoc.Proofs.EntryPoints
import RamlDoc.Proofs.KeyedBlocks
import RamlDoc.Proofs.Reorderings

/-!
# Lookups see every node

Each block of a node is keyed by the entries of a mapping in the trees that the document is read
from: those that stand at sites and in blocks, once directives are followed (`Site.TakesUp`). So
where all mappings in these trees have keys that are distinct without their tags, every node of the
document is found under its key (`Document.keyed_of_reaches`). The methods of a resource type are
left out: one that is marked as optional has the verb of one that is not.
-/

namespace RamlDoc

open Yaml

/-! ## Trees with distinct keys -/

/-- The entries of a mapping; other trees have none. -/
def Yaml.Tree.entries : Tree → Entries
  | .mapping entries => entries
  | _ => []

/-- All mappings in a tree, keys apart, have keys that are distinct without their tags. -/
def Yaml.Tree.UntaggedDistinct (tree : Tree) : Prop := tree.EachMapping Entries.UntaggedDistinct

namespace Yaml.Tree.UntaggedDistinct

variable {tree : Tree} {own : Entries}

theorem field (h : (mapping own).UntaggedDistinct) {key : String} {inside : Tree}
    (hfield : Entries.field? own key = some inside) : inside.UntaggedDistinct := by
  obtain ⟨entry, hentry, rfl⟩ := Option.map_eq_some_iff.1 (Option.filter_eq_some_iff.1 hfield).1
  exact h.part (List.mem_map_of_mem (List.mem_of_find?_eq_some hentry))

theorem entries (h : tree.UntaggedDistinct) : Entries.UntaggedDistinct tree.entries := by
  cases tree with
  | mapping entries => exact h [] entries rfl
  | _ => exact .nil

end Yaml.Tree.UntaggedDistinct

theorem entries_of_entriesOf {name : String} {tree : Tree} {entries : Entries}
    (h : entriesOf name tree = .ok entries) : tree.entries = entries := by
  unfold entriesOf at h
  split at h
  · exact Except.ok.inj h
  · exact Except.ok.inj h
  · cases h

/-! ## The trees that a document is read from -/

/-- The fields of a kind of node that hold blocks. -/
def SiteKind.blockFields : SiteKind → List String
  | .document => ["types", "traits", "resourceTypes", "annotationTypes", "securitySchemes", "uses",
      "baseUriParameters"]
  | .library _ => ["types", "traits", "resourceTypes", "annotationTypes", "securitySchemes", "uses"]
  | .type _ => ["properties", "facets"]
  | .annotationType _ | .body | .mediaType _ | .queryString => ["properties"]
  | .trait _ | .method _ _ => ["headers", "queryParameters"]
  | .resourceType _ | .resource _ => ["uriParameters"]
  | .response _ => ["headers"]
  | .securityScheme _ | .property _ | .parameter _ | .sample _ | .dataType => []

/-- The fields in the description of a security scheme that hold blocks. -/
def SiteKind.describedFields : SiteKind → List String
  | .securityScheme _ => ["headers", "queryParameters"]
  | _ => []

/-- The trees that are taken up when a root is read: at each site the one that stands there, and
those in its blocks, behind all directives. -/
inductive Site.TakesUp (root : Site) : Tree → Prop
  | content {site : Site} {origin : Source} {content : Tree} (hsite : root.Reaches site)
    (h : (site.kind.follow site.source site.tree).result = .ok (origin, content)) :
    TakesUp root content
  | block {site : Site} {origin opened : Source} {entries : Entries} {field : String}
    {content : Tree} (hsite : root.Reaches site)
    (h : (site.kind.follow site.source site.tree).result = .ok (origin, .mapping entries))
    (hfield : field ∈ site.kind.blockFields)
    (hopens : OpensTo origin entries field opened content) : TakesUp root content
  | described {site : Site} {origin opened : Source} {entries described : Entries} {field : String}
    {content : Tree} (hsite : root.Reaches site)
    (h : (site.kind.follow site.source site.tree).result = .ok (origin, .mapping entries))
    (hdescribed : Entries.field? entries "describedBy" = some (.mapping described))
    (hfield : field ∈ site.kind.describedFields)
    (hopens : OpensTo origin described field opened content) : TakesUp root content

/-- A mapping that is read as a node of some kind has distinct keys, and so have its blocks. -/
structure ReadsDistinct (kind : SiteKind) (source : Source) (entries : Entries) : Prop where
  tree : (Tree.mapping entries).UntaggedDistinct
  blocks : BlocksDistinct source entries kind.blockFields
  described : ∀ described, Entries.field? entries "describedBy" = some (.mapping described) →
    BlocksDistinct source described kind.describedFields

/-- What stands at a site has distinct keys. -/
def Site.Distinct (site : Site) : Prop :=
  ∀ origin content, (site.kind.follow site.source site.tree).result = .ok (origin, content) →
    ReadsDistinct site.kind origin content.entries

theorem blocksDistinct_nil {source : Source} {fields : List String} :
    BlocksDistinct source [] fields := by
  rintro field - origin declared ⟨tree, slot, hfield, -⟩
  cases hfield

theorem readsDistinct_nil (kind : SiteKind) (source : Source) : ReadsDistinct kind source [] where
  tree := .of_parts .nil rfl
  blocks := blocksDistinct_nil
  described described h := by cases h

theorem Site.distinct_of_takesUp {root site : Site}
    (h : ∀ tree, root.TakesUp tree → tree.UntaggedDistinct) (hsite : root.Reaches site) :
    site.Distinct := by
  intro origin content hfollow
  cases content with
  | mapping entries =>
    refine ⟨h _ (.content hsite hfollow), ?_, ?_⟩
    · intro field hfield opened declared hopens
      exact (h _ (.block hsite hfollow hfield hopens)).entries
    · intro described hdescribed field hfield opened declared hopens
      exact (h _ (.described hsite hfollow hdescribed hfield hopens)).entries
  | _ => exact readsDistinct_nil _ _

/-! ## Keyed nodes -/

section

variable (source : Source) (entries : Entries)

/-- The declarations of a document or a library are keyed by their blocks. -/
structure DeclarationsKeyed (declarations : Declarations) : Prop where
  types : DeclaredIn source entries "types" .type .type (·.name) declarations.types
  traits : DeclaredIn source entries "traits" .trait .trait (·.name) declarations.traits
  resourceTypes : DeclaredIn source entries "resourceTypes" .resourceType .resourceType
    (·.identifier) declarations.resourceTypes
  annotationTypes : DeclaredIn source entries "annotationTypes" .annotationType .annotationType
    (·.name) declarations.annotationTypes
  securitySchemes : DeclaredIn source entries "securitySchemes" .securityScheme .securityScheme
    (·.identifier) declarations.securitySchemes

/-- Properties, query parameters or facets are keyed by the block under a field. -/
def PropertiesKeyed (field : String) (properties : Block Property) : Prop :=
  DeclaredIn source entries field .property .property (·.name) properties

/-- Headers or parameters of a URI are keyed by the block under a field. -/
def ParametersKeyed (field : String) (parameters : Block Parameter) : Prop :=
  DeclaredIn source entries field .parameter .parameter (·.name) parameters

/-- The parameters of an exchange are keyed by their blocks. -/
structure ExchangeKeyed (exchange : Exchange) : Prop where
  headers : ParametersKeyed source entries "headers" exchange.headers
  queryParameters : PropertiesKeyed source entries "queryParameters" exchange.queryParameters

/-- Resources are keyed by the entries of the node around them whose keys are paths. -/
def ResourcesKeyed (resources : Block Resource) : Prop :=
  Keyed (·.path) id (fun key => (Resource.pathOf? key).isSome)
    (fun tree resource => (⟨.resource resource.path, source, tree⟩ : Site).result =
      .ok (some (.resource resource))) entries resources

/-- Methods are keyed by the entries of their resource whose keys are names of verbs. -/
def MethodsKeyed (methods : Block Method) : Prop :=
  Keyed (·.verb) Verb.name (fun key => (key.asString?.bind (Method.verbOf? false)).isSome)
    (fun tree method => (⟨.method method.verb method.optional, source, tree⟩ : Site).result =
      .ok (some (.method method))) entries methods

/-- Media types are keyed by the entries of their body whose keys are media types. -/
def MediaTypesKeyed (mediaTypes : Block MediaTypeBody) : Prop :=
  Keyed (·.identifier) id (fun key => (key.asString?.filter MediaType.isValid).isSome)
    (fun tree mediaType => (⟨.mediaType mediaType.identifier, source, tree⟩ : Site).result =
      .ok (some (.mediaType mediaType))) entries mediaTypes

/-- The annotations of chapters are keyed by the entries of the chapters. -/
def ChaptersKeyed (chapters : Block Chapter) : Prop :=
  (Entries.field? entries "documentation" = none ∧ chapters = none) ∨
    ∃ items, Entries.field? entries "documentation" = some (.sequence items) ∧
      List.Forall₂ (fun item chapter => Annotated item.entries chapter.annotations) items
        chapters.elements

/-- The blocks of a node that is read from a mapping are keyed, and so are its annotations. -/
def Document.Node.Keyed : Node → Prop
  | document d => DeclarationsKeyed source entries d.declarations ∧
      DeclaredIn source entries "uses" .library .library (·.identifier) d.uses ∧
      ResourcesKeyed source entries d.resources ∧
      ParametersKeyed source entries "baseUriParameters" d.baseUriParameters ∧
      Annotated entries d.annotations ∧ ChaptersKeyed entries d.documentation
  | library l => DeclarationsKeyed source entries l.declarations ∧
      DeclaredIn source entries "uses" .library .library (·.identifier) l.uses
  | type t => PropertiesKeyed source entries "properties" t.object.properties ∧
      PropertiesKeyed source entries "facets" t.ownFacets ∧
      Annotated entries t.facets.annotations
  | annotationType t => PropertiesKeyed source entries "properties" t.properties ∧
      Annotated entries t.annotations
  | trait t => ExchangeKeyed source entries t.exchange ∧ Annotated entries t.annotations
  | resourceType t => ParametersKeyed source entries "uriParameters" t.uriParameters ∧
      Annotated entries t.annotations
  | securityScheme s => Annotated entries s.annotations ∧
      Option.Rel (fun tree description => ExchangeKeyed source tree.entries description.exchange ∧
        Annotated tree.entries description.annotations)
        (Entries.field? entries "describedBy") s.describedBy
  | resource r => MethodsKeyed source entries r.methods ∧
      ResourcesKeyed source entries r.resources ∧
      ParametersKeyed source entries "uriParameters" r.uriParameters ∧
      Annotated entries r.annotations
  | method m => ExchangeKeyed source entries m.exchange ∧ Annotated entries m.annotations
  | response r => ParametersKeyed source entries "headers" r.headers ∧
      Annotated entries r.annotations
  | body b => PropertiesKeyed source entries "properties" b.payload.properties ∧
      MediaTypesKeyed source entries b.mediaTypes
  | mediaType b => PropertiesKeyed source entries "properties" b.payload.properties
  | queryString p => PropertiesKeyed source entries "properties" p.properties
  | property p => Annotated entries p.facets.annotations
  | parameter p => Annotated entries p.annotations
  -- without a value in a field, the whole mapping is the value
  | sample e => Annotated (if (Entries.get? entries "value").isSome then entries else [])
      e.annotations

end

/-- A node is keyed by the mapping that stands at a site. -/
def Site.KeysNode (site : Site) (node : Document.Node) : Prop :=
  ∃ origin content, (site.kind.follow site.source site.tree).result = .ok (origin, content) ∧
    node.Keyed origin content.entries

section Readers

variable {source : Source} {entries : Entries} {tree : Tree}

theorem annotated_nil : Annotated [] none := keyed_nil

theorem ReadsDistinct.annotated {kind : SiteKind} (h : ReadsDistinct kind source entries) :
    Annotated entries (annotationsOf entries) := annotated_annotationsOf h.tree.entries

/-- What stands in a slot is read as a keyed node. -/
theorem Yields.ofSlot {α : Type} {kind : SiteKind} {fragment : Option FragmentKind}
    {node : α → Document.Node} {next : Slot source tree → Reading α}
    (hopens : kind.opens? = some fragment) (hdistinct : (⟨kind, source, tree⟩ : Site).Distinct)
    (h : ∀ slot : Slot source tree, ReadsDistinct kind slot.origin slot.content.entries →
      Yields (fun value => (node value).Keyed slot.origin slot.content.entries) (next slot)) :
    Yields (fun value => (⟨kind, source, tree⟩ : Site).KeysNode (node value))
      (source.openSlot fragment tree >>= next) := by
  refine .bind fun slot hslot => ?_
  have hfollow := Site.result_follow_of_openSlot hopens hslot
  exact (h slot (hdistinct _ _ hfollow)).mono fun _ hvalue => ⟨_, _, hfollow, hvalue⟩

/-! ## Declarations -/

namespace Example

theorem yields_keyed (identifier : String)
    (hdistinct : (⟨.sample identifier, source, tree⟩ : Site).Distinct) :
    Yields (fun found => (⟨.sample identifier, source, tree⟩ : Site).KeysNode (.sample found))
      (read source identifier tree) := by
  have hkeys := hdistinct source tree rfl
  suffices h : Yields (fun found => (Document.Node.sample found).Keyed source tree.entries)
      (read source identifier tree) from h.mono fun _ hfound => ⟨source, tree, rfl, hfound⟩
  cases tree with
  | mapping entries =>
    change Yields (fun found : Example =>
      Annotated (if (Entries.get? entries "value").isSome then entries else []) found.annotations)
      (if (Entries.get? entries "value").isSome then _ else _)
    by_cases hvalue : (Entries.get? entries "value").isSome
    · rw [if_pos hvalue, if_pos hvalue]
      exact .bind fun _ _ => .bind fun _ _ => .bind fun _ _ => .pure hkeys.annotated
    · rw [if_neg hvalue, if_neg hvalue]
      exact .pure annotated_nil
  | _ =>
    unfold read
    split
    · exact .bind fun _ _ => .pure annotated_nil
    · exact .pure annotated_nil

end Example

theorem Facets.yields_read {α : Type} {P : α → Prop} {others : Reading α} (type : Option DataType)
    (h : Yields P others) :
    Yields (fun found => found.1.annotations = annotationsOf entries ∧ P found.2)
      (read source entries type others) := by
  unfold read
  refine .bind fun restrictions _ => .bind fun displayName _ => .bind fun description _ => ?_
  refine .bind fun admitted _ => .bind fun found hfound => .bind fun examples _ => ?_
  exact .pure ⟨rfl, h found hfound⟩

namespace Property

theorem yields_name (name : String) :
    Yields (fun property => property.name = name) (read source name tree) := by
  unfold read
  refine .bind fun slot _ => ?_
  split
  · exact .pure rfl
  · exact .pure rfl
  · exact .bind fun _ _ => .bind fun _ _ => .bind fun _ _ => .pure rfl
  · exact .fail _

/-- Properties are keyed by the entries that declare them. -/
theorem yields_readAll {field : String} {fields : List String} (hfield : field ∈ fields)
    (hdistinct : BlocksDistinct source entries fields) :
    Yields (PropertiesKeyed source entries field) (readAll source (Entries.field? entries field)) :=
  declaredIn_readBlock hfield hdistinct (fun _ _ _ => Site.result_of_unnamed rfl rfl)
    fun _ name _ => yields_name name

theorem yields_keyed (name : String)
    (hdistinct : (⟨.property name, source, tree⟩ : Site).Distinct) :
    Yields (fun found => (⟨.property name, source, tree⟩ : Site).KeysNode (.property found))
      (read source name tree) := by
  refine .ofSlot rfl hdistinct fun ⟨origin, content, _⟩ hkeys => ?_
  cases content with
  | null => exact .pure annotated_nil
  | string expression => exact .pure annotated_nil
  | mapping entries =>
    refine .bind fun type _ => .bind fun required _ => .bind fun found hfound => .pure ?_
    obtain ⟨hannotations, -⟩ :=
      Facets.yields_read type (.pure (P := fun _ => True) trivial) found hfound
    change Annotated entries found.1.annotations
    rw [hannotations]
    exact hkeys.annotated
  | _ => exact .fail _

end Property

namespace TypeDeclaration

theorem yields_name (name : String) :
    Yields (fun type => type.name = name) (read source name tree) := by
  unfold read
  refine .bind fun slot _ => ?_
  split
  · exact .pure rfl
  · exact .pure rfl
  · exact .bind fun _ _ => .bind fun _ _ => .bind fun _ _ => .pure rfl
  · exact .fail _

theorem yields_readOthers {name : String} (hkeys : ReadsDistinct (.type name) source entries)
    (items : Option DataType) :
    Yields (fun found => PropertiesKeyed source entries "properties" found.1.properties ∧
      PropertiesKeyed source entries "facets" found.2.2) (readOthers source entries items) := by
  refine .bind fun object hobject => .bind fun array _ => .bind fun ownFacets hownFacets => ?_
  have hproperties : Yields
      (fun object => PropertiesKeyed source entries "properties" object.properties)
      (readObject source entries) :=
    .bind fun properties hproperties => .bind fun _ _ => .bind fun _ _ => .bind fun _ _ =>
      .bind fun _ _ => .bind fun _ _ => .pure
        (Property.yields_readAll (.head _) hkeys.blocks properties hproperties)
  exact .pure ⟨hproperties object hobject,
    Property.yields_readAll (.tail _ (.head _)) hkeys.blocks ownFacets hownFacets⟩

theorem yields_keyed (name : String) (hdistinct : (⟨.type name, source, tree⟩ : Site).Distinct) :
    Yields (fun found => (⟨.type name, source, tree⟩ : Site).KeysNode (.type found))
      (read source name tree) := by
  refine .ofSlot rfl hdistinct fun ⟨origin, content, _⟩ hkeys => ?_
  cases content with
  | null => exact .pure ⟨declaredIn_nil, declaredIn_nil, annotated_nil⟩
  | string expression => exact .pure ⟨declaredIn_nil, declaredIn_nil, annotated_nil⟩
  | mapping entries =>
    refine .bind fun items _ => .bind fun declared _ => .bind fun found hfound => .pure ?_
    obtain ⟨hannotations, hproperties, hownFacets⟩ :=
      Facets.yields_read _ (yields_readOthers hkeys items) found hfound
    refine ⟨hproperties, hownFacets, ?_⟩
    change Annotated entries found.1.annotations
    rw [hannotations]
    exact hkeys.annotated
  | _ => exact .fail _

end TypeDeclaration

namespace AnnotationType

theorem yields_name (name : String) :
    Yields (fun type => type.name = name) (read source name tree) := by
  cases tree with
  | null => exact .pure rfl
  | string expression => exact .bind fun _ _ => .pure rfl
  | sequence items => exact .bind fun _ _ => .pure rfl
  | mapping entries =>
    exact .bind fun _ _ => .bind fun _ _ => .bind fun _ _ => .bind fun _ _ => .bind fun _ _ =>
      .pure rfl
  | _ => exact .fail _

theorem yields_keyed (name : String)
    (hdistinct : (⟨.annotationType name, source, tree⟩ : Site).Distinct) :
    Yields (fun found => (⟨.annotationType name, source, tree⟩ : Site).KeysNode
      (.annotationType found)) (read source name tree) := by
  have hkeys := hdistinct source tree rfl
  suffices h : Yields (fun found => (Document.Node.annotationType found).Keyed source tree.entries)
      (read source name tree) from h.mono fun _ hfound => ⟨source, tree, rfl, hfound⟩
  cases tree with
  | null => exact .pure ⟨declaredIn_nil, annotated_nil⟩
  | string expression => exact .bind fun _ _ => .pure ⟨declaredIn_nil, annotated_nil⟩
  | sequence items => exact .bind fun _ _ => .pure ⟨declaredIn_nil, annotated_nil⟩
  | mapping entries =>
    refine .bind fun properties hproperties => .bind fun _ _ => .bind fun _ _ => .bind fun _ _ =>
      .bind fun _ _ => .pure ⟨?_, hkeys.annotated⟩
    exact Property.yields_readAll (.head _) hkeys.blocks properties hproperties
  | _ => exact .fail _

end AnnotationType

/-! ## Operations -/

namespace Parameter

theorem yields_name (name : String) :
    Yields (fun parameter => parameter.name = name) (read source name tree) := by
  unfold read
  refine .bind fun slot _ => ?_
  split
  · exact .pure rfl
  · exact .pure rfl
  · refine .bind fun type _ => ?_
    exact .bind fun _ _ => .bind fun _ _ => .bind fun _ _ => .bind fun _ _ => .bind fun _ _ =>
      .bind fun _ _ => .pure rfl
  · exact .fail _

/-- Parameters are keyed by the entries that declare them. -/
theorem yields_readBlock {field construct : String} {fields : List String} (hfield : field ∈ fields)
    (hdistinct : BlocksDistinct source entries fields) :
    Yields (ParametersKeyed source entries field)
      (readBlock source field construct read (Entries.field? entries field)) :=
  declaredIn_readBlock hfield hdistinct (fun _ _ _ => Site.result_of_unnamed rfl rfl)
    fun _ name _ => yields_name name

theorem yields_keyed (name : String)
    (hdistinct : (⟨.parameter name, source, tree⟩ : Site).Distinct) :
    Yields (fun found => (⟨.parameter name, source, tree⟩ : Site).KeysNode (.parameter found))
      (read source name tree) := by
  refine .ofSlot rfl hdistinct fun ⟨origin, content, _⟩ hkeys => ?_
  cases content with
  | null => exact .pure annotated_nil
  | string expression => exact .pure annotated_nil
  | mapping entries =>
    refine .bind fun type _ => ?_
    exact .bind fun _ _ => .bind fun _ _ => .bind fun _ _ => .bind fun _ _ => .bind fun _ _ =>
      .bind fun _ _ => .pure hkeys.annotated
  | _ => exact .fail _

end Parameter

namespace Payload

theorem yields_ofEntries (hdistinct : BlocksDistinct source entries ["properties"]) :
    Yields (fun payload => PropertiesKeyed source entries "properties" payload.properties)
      (ofEntries source entries) :=
  .bind fun _ _ => .bind fun properties hproperties => .bind fun _ _ =>
    .pure (Property.yields_readAll (.head _) hdistinct properties hproperties)

theorem yields_keyed (hdistinct : (⟨.queryString, source, tree⟩ : Site).Distinct) :
    Yields (fun payload => ∀ found ∈ payload,
        (⟨.queryString, source, tree⟩ : Site).KeysNode (.queryString found))
      (readQueryString source (soleField "queryString" tree)) := by
  unfold readQueryString
  split
  next => exact .pure nofun
  next expression hfield =>
    obtain rfl := eq_of_field?_soleField hfield
    refine .pure ?_
    rintro found ⟨⟩
    exact ⟨source, .string expression, rfl, declaredIn_nil⟩
  next entries hfield =>
    obtain rfl := eq_of_field?_soleField hfield
    refine .map fun payload hpayload => ?_
    rintro found ⟨⟩
    have hkeys := hdistinct source (.mapping entries) rfl
    exact ⟨source, .mapping entries, rfl, yields_ofEntries hkeys.blocks payload hpayload⟩
  next => exact .fail _

end Payload

namespace MediaTypeBody

theorem yields_identifier (identifier : MediaType) :
    Yields (fun body => body.identifier = identifier) (read source identifier tree) := by
  unfold read
  refine .bind fun slot _ => ?_
  split
  · exact .pure rfl
  · exact .pure rfl
  · exact .bind fun _ _ => .pure rfl
  · exact .fail _

/-- The variants of a body are keyed by the entries whose keys are media types. -/
theorem yields_readAll (hkeys : entries.UntaggedDistinct) :
    Yields (fun items => MediaTypesKeyed source entries (Block.ofList items))
      (readAll source entries) := by
  intro items hitems
  rw [result_readAll] at hitems
  refine .of_readOff (readOff_of_collect hitems (fun entry hok => ?_) fun entry body houtcome => ?_)
    hkeys
  · unfold outcome? at hok ⊢
    cases hkey : keyText "Body" entry.1 with
    | error error =>
      rw [hkey] at hok
      exact absurd rfl (hok error)
    | ok identifier =>
      rw [asString?_of_keyText hkey, Option.filter_some]
      dsimp only
      split <;> rfl
  unfold outcome? at houtcome
  split at houtcome
  next => cases houtcome
  next identifier hkey =>
    split at houtcome
    next =>
      have hread := Option.some.inj houtcome
      obtain rfl : body.identifier = identifier := yields_identifier identifier body hread
      refine ⟨asString?_of_keyText hkey, ?_⟩
      rw [Site.result_of_unnamed rfl rfl, hread]
      rfl
    next => cases houtcome

theorem yields_keyed (identifier : MediaType)
    (hdistinct : (⟨.mediaType identifier, source, tree⟩ : Site).Distinct) :
    Yields (fun found => (⟨.mediaType identifier, source, tree⟩ : Site).KeysNode (.mediaType found))
      (read source identifier tree) := by
  refine .ofSlot rfl hdistinct fun ⟨origin, content, _⟩ hkeys => ?_
  cases content with
  | null => exact .pure declaredIn_nil
  | string expression => exact .pure declaredIn_nil
  | mapping entries =>
    exact .bind fun payload hpayload =>
      .pure (Payload.yields_ofEntries hkeys.blocks payload hpayload)
  | _ => exact .fail _

end MediaTypeBody

namespace Body

theorem yields_keyed (hdistinct : (⟨.body, source, tree⟩ : Site).Distinct) :
    Yields (fun body => ∀ found ∈ body, (⟨.body, source, tree⟩ : Site).KeysNode (.body found))
      (read source (soleField "body" tree)) := by
  unfold read
  split
  next => exact .pure nofun
  next content hfield =>
    obtain rfl := eq_of_field?_soleField hfield
    refine .bind fun slot hslot => ?_
    have hfollow : (SiteKind.follow source content .body).result =
        .ok (slot.origin, slot.content) := Site.result_follow_of_openSlot rfl hslot
    have hkeys := hdistinct _ _ hfollow
    suffices h : Yields (fun body => ∀ found ∈ body,
        (Document.Node.body found).Keyed slot.origin slot.content.entries)
        (ofTree slot.origin slot.content) from
      h.mono fun _ hbody found hfound => ⟨_, _, hfollow, hbody found hfound⟩
    clear hfollow hslot
    obtain ⟨origin, content, _⟩ := slot
    cases content with
    | null => exact .pure nofun
    | string expression =>
      refine .pure ?_
      rintro found ⟨⟩
      exact ⟨declaredIn_nil, keyed_nil⟩
    | mapping entries =>
      refine .bind fun mediaTypes hmediaTypes => .bind fun payload hpayload => .pure ?_
      rintro found ⟨⟩
      exact ⟨Payload.yields_ofEntries hkeys.blocks payload hpayload,
        MediaTypeBody.yields_readAll hkeys.tree.entries mediaTypes hmediaTypes⟩
    | _ => exact .fail _

end Body

/-- What is read of the entries of a node, where null has none. -/
theorem Yields.ofEntriesOf {α : Type} {kind : SiteKind} {name : String} {node : α → Document.Node}
    {next : Entries → Reading α} (hfollow : (kind.follow source tree).result = .ok (source, tree))
    (hdistinct : (⟨kind, source, tree⟩ : Site).Distinct)
    (h : ∀ entries, ReadsDistinct kind source entries →
      Yields (fun value => (node value).Keyed source entries) (next entries)) :
    Yields (fun value => (⟨kind, source, tree⟩ : Site).KeysNode (node value))
      ((liftM (entriesOf name tree) : Reading Entries) >>= next) := by
  refine .bind fun entries hentries => ?_
  have hkeys := hdistinct source tree hfollow
  rw [Reading.result_monadLift] at hentries
  obtain rfl := entries_of_entriesOf hentries
  exact (h tree.entries hkeys).mono fun _ hvalue => ⟨source, tree, hfollow, hvalue⟩

namespace Response

theorem yields_keyed (code : Nat) (hdistinct : (⟨.response code, source, tree⟩ : Site).Distinct) :
    Yields (fun found => (⟨.response code, source, tree⟩ : Site).KeysNode (.response found))
      (read source code tree) := by
  refine .ofEntriesOf rfl hdistinct fun entries hkeys => ?_
  refine .bind fun _ _ => .bind fun headers hheaders => .bind fun _ _ => .pure ?_
  exact ⟨Parameter.yields_readBlock (.head _) hkeys.blocks headers hheaders, hkeys.annotated⟩

end Response

namespace Exchange

variable (hdistinct : BlocksDistinct source entries ["headers", "queryParameters"])

include hdistinct

theorem yields_readHeaders :
    Yields (ParametersKeyed source entries "headers") (Parameter.readHeaders source entries) :=
  Parameter.yields_readBlock (.head _) hdistinct

theorem yields_readQueryParameters :
    Yields (PropertiesKeyed source entries "queryParameters")
      (readQueryParameters source entries) :=
  Property.yields_readAll (.tail _ (.head _)) hdistinct

/-- The headers and the query parameters of an exchange are keyed by their entries. -/
theorem yields_read : Yields (ExchangeKeyed source entries) (read source entries) :=
  .bind fun headers hheaders => .bind fun queryParameters hqueryParameters =>
    .bind fun _ _ => .bind fun _ _ => .pure ⟨yields_readHeaders hdistinct headers hheaders,
      yields_readQueryParameters hdistinct queryParameters hqueryParameters⟩

theorem yields_readOfMethod : Yields (ExchangeKeyed source entries) (readOfMethod source entries) :=
  .bind fun queryParameters hqueryParameters => .bind fun headers hheaders =>
    .bind fun _ _ => .bind fun _ _ => .pure ⟨yields_readHeaders hdistinct headers hheaders,
      yields_readQueryParameters hdistinct queryParameters hqueryParameters⟩

end Exchange

namespace Method

/-- Where no method is optional, the key of a verb is its name. -/
theorem name_of_verbOf? {key : String} {verb : Verb} {optional : Bool}
    (h : verbOf? false key = some (verb, optional)) : verb.name = key := by
  unfold verbOf? at h
  split at h
  next => cases h
  next =>
    obtain ⟨found, hfound, hverb⟩ := Option.map_eq_some_iff.1 h
    obtain ⟨rfl, -⟩ := Prod.mk.inj hverb
    simpa using List.find?_some hfound

theorem yields_verb (verb : Verb) (optional : Bool) :
    Yields (fun method => method.verb = verb ∧ method.optional = optional)
      (read source verb optional tree) :=
  .bind fun _ _ => .bind fun _ _ => .bind fun _ _ => .bind fun _ _ => .bind fun _ _ =>
    .bind fun _ _ => .bind fun _ _ => .bind fun _ _ => .pure ⟨rfl, rfl⟩

/-- Methods are keyed by the entries whose keys are verbs. -/
theorem yields_readAll (hkeys : entries.UntaggedDistinct) :
    Yields (MethodsKeyed source entries) (readAll source false entries) := by
  refine .map fun methods hmethods => ?_
  rw [result_ofVerbs] at hmethods
  refine .of_readOff (readOff_of_collect hmethods (fun entry _ => ?_)
    fun entry method houtcome => ?_) hkeys
  · rw [outcome?, Option.isSome_map]
  obtain ⟨⟨verb, optional⟩, hverb, hread⟩ := Option.map_eq_some_iff.1 houtcome
  obtain ⟨key, hkey, hverb⟩ := Option.bind_eq_some_iff.1 hverb
  change (read source verb optional entry.2).result = .ok method at hread
  obtain ⟨rfl, rfl⟩ := yields_verb verb optional method hread
  refine ⟨by rw [hkey, name_of_verbOf? hverb], ?_⟩
  rw [Site.result_of_unnamed rfl rfl, hread]
  rfl

theorem yields_keyed (verb : Verb) (optional : Bool)
    (hdistinct : (⟨.method verb optional, source, tree⟩ : Site).Distinct) :
    Yields (fun found => (⟨.method verb optional, source, tree⟩ : Site).KeysNode (.method found))
      (read source verb optional tree) := by
  refine .ofEntriesOf rfl hdistinct fun entries hkeys => ?_
  refine .bind fun _ _ => .bind fun _ _ => .bind fun exchange hexchange => .bind fun _ _ =>
    .bind fun _ _ => .bind fun _ _ => .bind fun _ _ => .pure ?_
  exact ⟨Exchange.yields_readOfMethod hkeys.blocks exchange hexchange, hkeys.annotated⟩

end Method

end Readers

end RamlDoc
