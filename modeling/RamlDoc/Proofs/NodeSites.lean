import Mathlib.Data.Set.Insert
import RamlDoc.Proofs.DocumentNodes
import RamlDoc.Proofs.Misfits

/-!
# Where nodes are read

A site is a place where a node is read, or the type that a node declares: what is read, the source,
and the tree that stands there. The readers are mutually recursive over these sites only. Which
sites lie in a site (`Site.inner`) is known before any of them is read: they are the entries of the
mapping that stands in it once directives are followed. `ReadsIn` says that a reader makes its nodes
at given sites and that its errors are ordinary or arise there.
-/

namespace RamlDoc

open Yaml

/-- What is read at a site, with what its reader is told. -/
inductive SiteKind where
  | document
  | library (identifier : String)
  | type (name : String)
  | annotationType (name : String)
  | trait (name : String)
  | resourceType (identifier : String)
  | securityScheme (identifier : String)
  | resource (path : String)
  | method (verb : Verb) (optional : Bool)
  | response (code : Nat)
  | body
  | mediaType (identifier : MediaType)
  | queryString
  | property (name : String)
  | parameter (name : String)
  | sample (identifier : String)
  /-- The type that a node declares. -/
  | dataType
deriving DecidableEq

/-- A place where a node or a type is read. -/
structure Site where
  kind : SiteKind
  source : Source
  tree : Tree

/-- Reads a declaration that may be a fragment. -/
def readFragment {α : Type} (fragment : FragmentKind)
    (ofEntries : Source → String → Entries → Reading α)
    (source : Source) (name : String) (tree : Tree) : Reading α := do
  let slot ← source.openSlot (some fragment) tree
  let entries ← entriesOf name slot.content
  ofEntries slot.origin name entries

/-- A mapping of one field. -/
def soleField (key : String) (tree : Tree) : Entries := [(.string key, tree)]

namespace SiteKind

/-- The kind of declaration whose name is told when it fails. -/
def named? : SiteKind → Option (NodeKind × String)
  | library identifier => some (.library, identifier)
  | annotationType name => some (.annotationType, name)
  | trait name => some (.trait, name)
  | resourceType identifier => some (.resourceType, identifier)
  | securityScheme identifier => some (.securityScheme, identifier)
  | _ => none

/-- An error in a site as it is told outside. -/
def tell (kind : SiteKind) (error : Error) : Error :=
  kind.named?.elim error fun (kind, name) => .failed kind name error

/-- Reads what stands at a site. A body may be absent, and a type is no node. -/
def read (source : Source) (tree : Tree) : SiteKind → Reading (Option Document.Node)
  | document => do return some (.document (← Document.ofTree source tree))
  | library identifier => do return some (.library (← Library.read source identifier tree))
  | type name => do return some (.type (← TypeDeclaration.read source name tree))
  | annotationType name => do return some (.annotationType (← AnnotationType.read source name tree))
  | trait name => do
    return some (.trait (← readFragment .trait TraitDefinition.ofEntries source name tree))
  | resourceType identifier => do
    return some <| .resourceType <|
      ← readFragment .resourceType ResourceType.ofEntries source identifier tree
  | securityScheme identifier => do
    return some <| .securityScheme <|
      ← readFragment .securityScheme SecurityScheme.ofEntries source identifier tree
  | resource path => do return some (.resource (← Resource.read source path tree))
  | method verb optional => do return some (.method (← Method.read source verb optional tree))
  | response code => do return some (.response (← Response.read source code tree))
  | body => do return (← Body.read source (soleField "body" tree)).map .body
  | mediaType identifier => do
    return some (.mediaType (← MediaTypeBody.read source identifier tree))
  | queryString => do
    return (← Payload.readQueryString source (soleField "queryString" tree)).map .queryString
  | property name => do return some (.property (← Property.read source name tree))
  | parameter name => do return some (.parameter (← Parameter.read source name tree))
  | sample identifier => do return some (.sample (← Example.read source identifier tree))
  | dataType => do
    let _ ← DataType.ofTree? (some "type") tree
    return none

/-- The kind of fragment that a directive leads to, where directives are followed. -/
def opens? : SiteKind → Option (Option FragmentKind)
  | type _ | resource _ | body | mediaType _ | property _ | parameter _ => some none
  | trait _ => some (some .trait)
  | resourceType _ => some (some .resourceType)
  | securityScheme _ => some (some .securityScheme)
  | _ => none

/-- What is read in the place of a tree once a directive there is followed, with its source. -/
def follow (source : Source) (tree : Tree) (kind : SiteKind) : Reading (Source × Tree) :=
  match kind with
  | library _ =>
    match Library.pathOf? tree with
    | some target => do
      let included ← source.resolveTarget target (some .library)
      return (included.source, included.tree)
    | none => pure (source, tree)
  | kind =>
    match kind.opens? with
    | some fragment => do
      let slot ← source.openSlot fragment tree
      return (slot.origin, slot.content)
    | none => pure (source, tree)

end SiteKind

namespace Site

/-- What comes of reading a site, an error as it is told outside. -/
def result (site : Site) : Except Error (Option Document.Node) :=
  (site.kind.read site.source site.tree).result.mapError site.kind.tell

/-! ## The sites in a mapping -/

variable (source : Source) (entries : Entries)

/-- The entries whose keys are ones of a kind. -/
def atKeys (kind? : Tree → Option SiteKind) : Set Site :=
  {site | ∃ entry ∈ entries, kind? entry.1 = some site.kind ∧ site.source = source ∧
    site.tree = entry.2}

/-- The value of a field. -/
def atField (key : String) (kind : SiteKind) : Set Site :=
  {site | Entries.field? entries key = some site.tree ∧ site.kind = kind ∧ site.source = source}

/-- The entries of a block, behind all directives. -/
def atBlock (key : String) (kind : String → SiteKind) : Set Site :=
  {site | ∃ tree slot declared, Entries.field? entries key = some tree ∧
    (source.openBlock tree).result = .ok slot ∧ slot.content = .mapping declared ∧
      site ∈ atKeys slot.origin declared fun key => key.asString?.map kind}

/-- The type that a mapping declares. -/
def ofType : Set Site := {⟨.dataType, source, .mapping entries⟩}

/-- The examples of a node. -/
def ofExamples : Set Site :=
  atField source entries "example" (.sample "example") ∪
    {site | ∃ named, Entries.field? entries "examples" = some (.mapping named) ∧
      site ∈ atKeys source named fun key => key.asString?.map .sample}

/-- The sites of a payload. -/
def ofPayload : Set Site :=
  ofType source entries ∪ atBlock source entries "properties" .property ∪ ofExamples source entries

/-- The responses of a node. -/
def ofResponses : Set Site :=
  {site | ∃ codes, Entries.field? entries "responses" = some (.mapping codes) ∧
    site ∈ atKeys source codes fun key => (Response.code? key).map .response}

/-- The sites of an exchange. -/
def ofExchange : Set Site :=
  atBlock source entries "headers" .parameter ∪
    atBlock source entries "queryParameters" .property ∪
    atField source entries "queryString" .queryString ∪ ofResponses source entries

/-- The methods of a resource or a resource type. -/
def ofMethods (allowOptional : Bool) : Set Site :=
  atKeys source entries fun key =>
    (key.asString?.bind (Method.verbOf? allowOptional)).map fun (verb, optional) =>
      .method verb optional

/-- The resources of a node. -/
def ofResources : Set Site :=
  atKeys source entries fun key => (Resource.pathOf? key).map .resource

/-- The media types of a body. -/
def ofMediaTypes : Set Site :=
  atKeys source entries fun key => (key.asString?.filter MediaType.isValid).map .mediaType

/-- The declarations of a document or a library. -/
def ofDeclarations : Set Site :=
  atBlock source entries "types" .type ∪ atBlock source entries "traits" .trait ∪
    atBlock source entries "resourceTypes" .resourceType ∪
    atBlock source entries "annotationTypes" .annotationType ∪
    atBlock source entries "securitySchemes" .securityScheme

/-- The sites in a mapping that is read as a node. -/
def ofEntries : SiteKind → Set Site
  | .document => ofDeclarations source entries ∪ atBlock source entries "uses" .library ∪
      ofResources source entries ∪ atBlock source entries "baseUriParameters" .parameter
  | .library _ => ofDeclarations source entries ∪ atBlock source entries "uses" .library
  | .type _ => ofType source entries ∪
      {⟨.dataType, source, (Entries.field? entries "items").getD .null⟩} ∪
      atBlock source entries "properties" .property ∪ atBlock source entries "facets" .property ∪
      ofExamples source entries
  | .annotationType _ => atBlock source entries "properties" .property
  | .trait _ => ofExchange source entries ∪ atField source entries "body" .body
  | .resourceType _ => ofMethods source entries true ∪
      atBlock source entries "uriParameters" .parameter
  | .securityScheme _ =>
    {site | ∃ described, Entries.field? entries "describedBy" = some (.mapping described) ∧
      site ∈ ofExchange source described}
  | .resource _ => ofMethods source entries false ∪ ofResources source entries ∪
      atBlock source entries "uriParameters" .parameter
  | .method _ _ => ofExchange source entries ∪ atField source entries "body" .body
  | .response _ => atBlock source entries "headers" .parameter ∪
      atField source entries "body" .body
  | .body => ofPayload source entries ∪ ofMediaTypes source entries
  | .mediaType _ | .queryString => ofPayload source entries
  | .property _ | .parameter _ => ofType source entries ∪ ofExamples source entries
  | .sample _ | .dataType => ∅

/-- The sites in a site. -/
def inner (site : Site) : Set Site :=
  {inside | ∃ source entries, (site.kind.follow site.source site.tree).result =
    .ok (source, .mapping entries) ∧ inside ∈ ofEntries source entries site.kind}

section Lemmas

variable {source : Source} {entries : Entries} {kind : SiteKind} {tree : Tree}

theorem mem_atKeys {kind? : Tree → Option SiteKind} {entry : Tree × Tree} (hentry : entry ∈ entries)
    (hkind : kind? entry.1 = some kind) :
    ⟨kind, source, entry.2⟩ ∈ atKeys source entries kind? :=
  ⟨entry, hentry, hkind, rfl, rfl⟩

theorem subset_inner {origin : Source}
    (h : (kind.follow source tree).result = .ok (origin, .mapping entries)) :
    ofEntries origin entries kind ⊆ (⟨kind, source, tree⟩ : Site).inner :=
  fun _ hsite => ⟨origin, entries, h, hsite⟩

@[simp] theorem atKeys_nil (kind? : Tree → Option SiteKind) : atKeys source [] kind? = ∅ := by
  simp [atKeys]

@[simp] theorem atField_nil (key : String) : atField source [] key kind = ∅ := by
  simp [atField, Entries.field?, Entries.get?]

@[simp] theorem atBlock_nil (key : String) (kind : String → SiteKind) :
    atBlock source [] key kind = ∅ := by
  simp [atBlock, Entries.field?, Entries.get?]

@[simp] theorem ofExchange_nil : ofExchange source [] = ∅ := by
  simp [ofExchange, ofResponses, Entries.field?, Entries.get?]

/-- Null is read like a mapping without entries. -/
theorem subset_inner_of_entriesOf {origin : Source} {content : Tree} {name : String}
    (h : (kind.follow source tree).result = .ok (origin, content))
    (hentries : entriesOf name content = .ok entries) (hnil : ofEntries origin [] kind = ∅) :
    ofEntries origin entries kind ⊆ (⟨kind, source, tree⟩ : Site).inner := by
  unfold entriesOf at hentries
  split at hentries
  · cases hentries
    exact subset_inner h
  · cases hentries
    rw [hnil]
    exact Set.empty_subset _
  · cases hentries

theorem result_follow_of_openSlot {fragment : Option FragmentKind} {slot : Slot source tree}
    (hopens : kind.opens? = some fragment)
    (hslot : (source.openSlot fragment tree).result = .ok slot) :
    (kind.follow source tree).result = .ok (slot.origin, slot.content) := by
  unfold SiteKind.follow
  split
  · cases hopens
  · rw [hopens]
    simp only [Reading.result_bind, hslot]
    rfl

theorem subset_inner_of_openSlot {fragment : Option FragmentKind} {slot : Slot source tree}
    (hopens : kind.opens? = some fragment)
    (hslot : (source.openSlot fragment tree).result = .ok slot)
    (hcontent : slot.content = .mapping entries) :
    ofEntries slot.origin entries kind ⊆ (⟨kind, source, tree⟩ : Site).inner :=
  subset_inner (hcontent ▸ result_follow_of_openSlot hopens hslot)

end Lemmas

/-! ## Where sites lie -/

/-- A site lies in a mapping: at one of its entries, in a block, in a mapping under a field, or
where the type is read that the mapping declares. -/
inductive Lies (source : Source) : Entries → Site → Prop
  | atKeys {entries : Entries} {site : Site} {kind? : Tree → Option SiteKind}
    (h : site ∈ atKeys source entries kind?) : Lies source entries site
  | atField {entries : Entries} {site : Site} {key : String} {kind : SiteKind}
    (h : site ∈ atField source entries key kind) : Lies source entries site
  | atBlock {entries : Entries} {site : Site} {key : String} {kind : String → SiteKind}
    (h : site ∈ atBlock source entries key kind) : Lies source entries site
  | under {entries inner : Entries} {site : Site} {key : String}
    (hfield : Entries.field? entries key = some (.mapping inner)) (h : Lies source inner site) :
    Lies source entries site
  | type (entries : Entries) : Lies source entries ⟨.dataType, source, .mapping entries⟩
  | absent (entries : Entries) : Lies source entries ⟨.dataType, source, .null⟩

namespace Lies

variable {source : Source} {entries : Entries} {site : Site}

theorem of_mem_ofExamples (h : site ∈ ofExamples source entries) : Lies source entries site := by
  rcases h with h | ⟨named, hfield, h⟩
  · exact .atField h
  · exact .under hfield (.atKeys h)

theorem of_mem_ofType (h : site ∈ ofType source entries) : Lies source entries site := by
  obtain rfl := Set.mem_singleton_iff.1 h
  exact .type entries

theorem of_mem_ofPayload (h : site ∈ ofPayload source entries) : Lies source entries site := by
  rcases h with (h | h) | h
  · exact of_mem_ofType h
  · exact .atBlock h
  · exact of_mem_ofExamples h

theorem of_mem_ofExchange (h : site ∈ ofExchange source entries) : Lies source entries site := by
  rcases h with ((h | h) | h) | ⟨codes, hfield, h⟩
  · exact .atBlock h
  · exact .atBlock h
  · exact .atField h
  · exact .under hfield (.atKeys h)

theorem of_mem_ofDeclarations (h : site ∈ ofDeclarations source entries) :
    Lies source entries site := by
  rcases h with (((h | h) | h) | h) | h <;> exact .atBlock h

theorem of_mem_ofEntries {kind : SiteKind} (h : site ∈ ofEntries source entries kind) :
    Lies source entries site := by
  cases kind with
  | document =>
    rcases h with ((h | h) | h) | h
    · exact of_mem_ofDeclarations h
    · exact .atBlock h
    · exact .atKeys h
    · exact .atBlock h
  | library =>
    rcases h with h | h
    · exact of_mem_ofDeclarations h
    · exact .atBlock h
  | type =>
    rcases h with (((h | h) | h) | h) | h
    · exact of_mem_ofType h
    · obtain rfl := Set.mem_singleton_iff.1 h
      cases hfield : Entries.field? entries "items" with
      | none => exact .absent entries
      | some items => exact .atField ⟨hfield, rfl, rfl⟩
    · exact .atBlock h
    · exact .atBlock h
    · exact of_mem_ofExamples h
  | annotationType => exact .atBlock h
  | resourceType =>
    rcases h with h | h
    · exact .atKeys h
    · exact .atBlock h
  | securityScheme =>
    obtain ⟨described, hfield, h⟩ := h
    exact .under hfield (of_mem_ofExchange h)
  | resource =>
    rcases h with (h | h) | h
    · exact .atKeys h
    · exact .atKeys h
    · exact .atBlock h
  | trait | method =>
    rcases h with h | h
    · exact of_mem_ofExchange h
    · exact .atField h
  | response =>
    rcases h with h | h
    · exact .atBlock h
    · exact .atField h
  | body =>
    rcases h with h | h
    · exact of_mem_ofPayload h
    · exact .atKeys h
  | mediaType | queryString => exact of_mem_ofPayload h
  | property | parameter =>
    rcases h with h | h
    · exact of_mem_ofType h
    · exact of_mem_ofExamples h
  | sample | dataType => exact h.elim

end Lies

/-! ## Sites are nested finitely -/

/-- A site lies in a file where fewer includes can be nested, or in a smaller tree, or is where the
type of the same tree is read. -/
def Below (source : Source) (size : Nat) (site : Site) : Prop :=
  site.source.remaining < source.remaining ∨
    (site.source.remaining = source.remaining ∧
      (sizeOf site.tree < size ∨ (sizeOf site.tree = size ∧ site.kind = .dataType)))

theorem Below.mono {origin source : Source} {size size' : Nat} {site : Site}
    (h : Below origin size site) (hwithin : origin.remaining < source.remaining ∨
      (origin.remaining = source.remaining ∧ size ≤ size')) : Below source size' site := by
  rcases h with h | ⟨h, hsize⟩
  · refine .inl ?_
    rcases hwithin with hwithin | ⟨hwithin, -⟩ <;> omega
  · rcases hwithin with hwithin | ⟨hwithin, hle⟩
    · exact .inl (h ▸ hwithin)
    · refine .inr ⟨h.trans hwithin, ?_⟩
      rcases hsize with hlt | ⟨heq, hkind⟩
      · exact .inl (Nat.lt_of_lt_of_le hlt hle)
      · rcases Nat.lt_or_eq_of_le hle with hlt | hsame
        · exact .inl (heq ▸ hlt)
        · exact .inr ⟨heq.trans hsame, hkind⟩

variable {source : Source} {entries : Entries} {site : Site}

theorem below_of_mem_atKeys {kind? : Tree → Option SiteKind}
    (h : site ∈ atKeys source entries kind?) :
    Below source (sizeOf (Tree.mapping entries)) site := by
  obtain ⟨⟨key, value⟩, hentry, -, hsource, htree⟩ := h
  have := List.sizeOf_lt_of_mem hentry
  simp only [Prod.mk.sizeOf_spec] at this htree
  refine .inr ⟨by rw [hsource], .inl ?_⟩
  rw [htree, Tree.mapping.sizeOf_spec]
  omega

/-- The sites in a mapping lie below it. -/
theorem below_of_lies (h : Lies source entries site) :
    Below source (sizeOf (Tree.mapping entries)) site := by
  induction h with
  | atKeys h => exact below_of_mem_atKeys h
  | @atField entries site _ _ h =>
    obtain ⟨hfield, -, hsource⟩ := h
    have := Library.sizeOf_field?_lt hfield
    refine .inr ⟨by rw [hsource], .inl ?_⟩
    rw [Tree.mapping.sizeOf_spec]
    omega
  | @atBlock entries site _ _ h =>
    obtain ⟨tree, slot, declared, hfield, -, hcontent, h⟩ := h
    have := Library.sizeOf_field?_lt hfield
    refine (below_of_mem_atKeys h).mono ?_
    have hwithin := slot.within
    rw [hcontent] at hwithin
    simp only [Tree.mapping.sizeOf_spec] at hwithin ⊢
    omega
  | under hfield _ ih =>
    have := Library.sizeOf_field?_lt hfield
    refine ih.mono (.inr ⟨rfl, ?_⟩)
    simp only [Tree.mapping.sizeOf_spec] at this ⊢
    omega
  | type entries => exact .inr ⟨rfl, .inr ⟨rfl, rfl⟩⟩
  | absent entries =>
    refine .inr ⟨rfl, ?_⟩
    simp only [Tree.mapping.sizeOf_spec, Tree.null.sizeOf_spec, and_true]
    omega

/-- What is followed to lies in a file where fewer includes can be nested, or is no larger. -/
theorem within_of_follow {kind : SiteKind} {tree content : Tree} {origin : Source}
    (h : (kind.follow source tree).result = .ok (origin, content)) :
    origin.remaining < source.remaining ∨
      (origin.remaining = source.remaining ∧ sizeOf content ≤ sizeOf tree) := by
  have hinPlace {origin : Source} {content : Tree}
      (h : (pure (source, tree) : Reading (Source × Tree)).result = .ok (origin, content)) :
      origin.remaining < source.remaining ∨
        (origin.remaining = source.remaining ∧ sizeOf content ≤ sizeOf tree) := by
    cases h
    exact .inr ⟨rfl, le_rfl⟩
  unfold SiteKind.follow at h
  split at h
  · split at h
    · rw [Reading.result_bind] at h
      obtain ⟨included, -, h⟩ := exists_of_bind_eq_ok h
      cases h
      exact .inl included.nested
    · exact hinPlace h
  · split at h
    · rw [Reading.result_bind] at h
      obtain ⟨slot, -, h⟩ := exists_of_bind_eq_ok h
      cases h
      exact slot.within
    · exact hinPlace h

/-- The includes that can be nested at a site, the size of its tree, and whether more than a type is
read there. -/
noncomputable def measure (site : Site) : Nat × Nat × Nat :=
  (site.source.remaining, sizeOf site.tree, if site.kind = .dataType then 0 else 1)

/-- Sites in sites come to an end. -/
theorem wellFounded_inner : WellFounded fun inside outer : Site => inside ∈ outer.inner := by
  have hlt := Nat.lt_wfRel.wf
  refine Subrelation.wf ?_ (InvImage.wf measure (hlt.prod_lex (hlt.prod_lex hlt)))
  rintro inside ⟨kind, source, tree⟩ ⟨origin, entries, hfollow, hinside⟩
  have hkind : kind ≠ .dataType := by
    rintro rfl
    exact hinside.elim
  have hbelow : Below source (sizeOf tree) inside :=
    (below_of_lies (.of_mem_ofEntries hinside)).mono (within_of_follow hfollow)
  simp only [InvImage, measure, Prod.lex_def, if_neg hkind]
  refine hbelow.imp_right fun ⟨hremaining, hsize⟩ => ⟨hremaining, hsize.imp_right ?_⟩
  rintro ⟨hsize, hdataType⟩
  rw [if_pos hdataType]
  exact ⟨hsize, Nat.zero_lt_one⟩

end Site

end RamlDoc
