import RamlDoc.Proofs.TakenTrees

/-!
# Lookups see every node

Whatever node a document reaches is read at some site, from a mapping that its blocks are keyed by
(`Site.yields_keyed`). So where all mappings in the trees of a document have keys that are distinct
without their tags, each block in it has distinct keys and a lookup finds each of its items, in
libraries and included files as well (`Document.keyed_of_reaches`).
-/

namespace RamlDoc

open Yaml

section Readers

variable {source : Source} {entries : Entries} {tree : Tree}

/-! ## Resources -/

namespace Resource

theorem yields_path (path : String) :
    Yields (fun resource => resource.path = path) (read source path tree) := by
  have hentries (origin : Source) (entries : Entries) (readChildren : Reading (List Resource)) :
      Yields (fun resource => resource.path = path) (ofEntries origin path entries readChildren) :=
    .bind fun _ _ => .bind fun _ _ => .bind fun _ _ => .bind fun _ _ => .bind fun _ _ =>
      .bind fun _ _ => .bind fun _ _ => .bind fun _ _ => .pure rfl
  rw [read]
  refine .bind fun slot _ => ?_
  unfold readContent
  split
  · exact hentries _ _ _
  · exact hentries _ _ _
  · exact .fail _

theorem yields_readEntries (hkeys : entries.UntaggedDistinct) :
    Yields (fun items => ResourcesKeyed source entries (Block.ofList items))
      (readEntries source entries) := by
  intro items hitems
  rw [result_readEntries] at hitems
  refine .of_readOff (readOff_of_collect hitems (fun entry _ => ?_)
    fun entry resource houtcome => ?_) hkeys
  · rw [outcome?, Option.isSome_map]
  obtain ⟨path, hpath, hread⟩ := Option.map_eq_some_iff.1 houtcome
  obtain rfl : resource.path = path := yields_path path resource hread
  refine ⟨(Option.filter_eq_some_iff.1 hpath).1, ?_⟩
  rw [Site.result_of_unnamed rfl rfl, hread]
  rfl

theorem yields_ofEntries {path : String} {readChildren : Reading (List Resource)}
    (hkeys : ReadsDistinct (.resource path) source entries)
    (hchildren : Yields (fun items => ResourcesKeyed source entries (Block.ofList items))
      readChildren) :
    Yields (fun resource => (Document.Node.resource resource).Keyed source entries)
      (ofEntries source path entries readChildren) := by
  refine .bind fun _ _ => .bind fun _ _ => .bind fun methods hmethods =>
    .bind fun resources hresources => .bind fun _ _ => .bind fun _ _ => .bind fun _ _ =>
      .bind fun parameters hparameters => .pure ?_
  exact ⟨Method.yields_readAll hkeys.tree.entries methods hmethods, hchildren resources hresources,
    Parameter.yields_readBlock (.head _) hkeys.blocks parameters hparameters, hkeys.annotated⟩

theorem yields_keyed (path : String)
    (hdistinct : (⟨.resource path, source, tree⟩ : Site).Distinct) :
    Yields (fun found => (⟨.resource path, source, tree⟩ : Site).KeysNode (.resource found))
      (read source path tree) := by
  rw [read]
  refine .ofSlot rfl hdistinct fun ⟨origin, content, _⟩ hkeys => ?_
  cases content with
  | mapping entries =>
    rw [readContent]
    exact yields_ofEntries hkeys (yields_readEntries hkeys.tree.entries)
  | null =>
    rw [readContent]
    exact yields_ofEntries hkeys (.pure keyed_nil)
  | _ =>
    unfold readContent
    exact .fail _

end Resource

/-! ## Templates -/

/-- A fragment is read as a keyed node if the entries of its mapping are. -/
theorem Yields.ofFragment {α : Type} {kind : SiteKind} {fragment : FragmentKind} {name : String}
    {node : α → Document.Node} {ofEntries : Source → String → Entries → Reading α}
    (hopens : kind.opens? = some (some fragment))
    (hdistinct : (⟨kind, source, tree⟩ : Site).Distinct)
    (h : ∀ source entries, ReadsDistinct kind source entries →
      Yields (fun value => (node value).Keyed source entries) (ofEntries source name entries)) :
    Yields (fun value => (⟨kind, source, tree⟩ : Site).KeysNode (node value))
      (readFragment fragment ofEntries source name tree) := by
  refine .ofSlot hopens hdistinct fun slot hkeys => .bind fun entries hentries => ?_
  rw [Reading.result_monadLift] at hentries
  obtain rfl := entries_of_entriesOf hentries
  exact h slot.origin slot.content.entries hkeys

theorem Yields.ofFragmentEntries {α : Type} {P : α → Prop} {fragment : FragmentKind} {name : String}
    {ofEntries : Source → String → Entries → Reading α}
    (h : ∀ source entries, Yields P (ofEntries source name entries)) :
    Yields P (readFragment fragment ofEntries source name tree) :=
  .bind fun slot _ => .bind fun entries _ => h slot.origin entries

/-- A block of declarations that may be fragments is declared in its field. -/
theorem declaredIn_readFragments {α : Type} {field construct : String} {fragment : FragmentKind}
    {nodeKind : NodeKind} {ofEntries : Source → String → Entries → Reading α}
    {kind : String → SiteKind} {node : α → Document.Node} {keyOf : α → String}
    {fields : List String} (hfield : field ∈ fields)
    (hdistinct : BlocksDistinct source entries fields)
    (hnamed : ∀ name, (kind name).named? = some (nodeKind, name))
    (hread : ∀ source name tree, (kind name).read source tree = do
      return some (node (← readFragment fragment ofEntries source name tree)))
    (hname : ∀ source name entries, Yields (fun item => keyOf item = name)
      (ofEntries source name entries)) :
    Yields (DeclaredIn source entries field kind node keyOf)
      (readFragments source field construct fragment nodeKind ofEntries
        (Entries.field? entries field)) :=
  declaredIn_readBlock hfield hdistinct
    (fun origin name tree => Site.result_of_named (hnamed name) (hread origin name tree))
    fun _ name _ =>
      .mapError (.ofFragmentEntries fun source entries => hname source name entries)

namespace TraitDefinition

theorem yields_name (name : String) :
    Yields (fun trait => trait.name = name) (ofEntries source name entries) :=
  .bind fun _ _ => .bind fun _ _ => .bind fun _ _ => .bind fun _ _ => .bind fun _ _ =>
    .bind fun _ _ => .bind fun _ _ => .pure rfl

theorem yields_ofEntries {name : String} (hkeys : ReadsDistinct (.trait name) source entries) :
    Yields (fun trait => (Document.Node.trait trait).Keyed source entries)
      (ofEntries source name entries) :=
  .bind fun _ _ => .bind fun _ _ => .bind fun _ _ => .bind fun exchange hexchange =>
    .bind fun _ _ => .bind fun _ _ => .bind fun _ _ => .pure
      ⟨Exchange.yields_read hkeys.blocks exchange hexchange, hkeys.annotated⟩

end TraitDefinition

namespace ResourceType

theorem yields_identifier (identifier : String) :
    Yields (fun type => type.identifier = identifier) (ofEntries source identifier entries) :=
  .bind fun _ _ => .bind fun _ _ => .bind fun _ _ => .bind fun _ _ => .bind fun _ _ =>
    .bind fun _ _ => .bind fun _ _ => .pure rfl

theorem yields_ofEntries {identifier : String}
    (hkeys : ReadsDistinct (.resourceType identifier) source entries) :
    Yields (fun type => (Document.Node.resourceType type).Keyed source entries)
      (ofEntries source identifier entries) :=
  .bind fun _ _ => .bind fun _ _ => .bind fun _ _ => .bind fun _ _ =>
    .bind fun parameters hparameters => .bind fun _ _ => .bind fun _ _ => .pure
      ⟨Parameter.yields_readBlock (.head _) hkeys.blocks parameters hparameters, hkeys.annotated⟩

end ResourceType

namespace SecurityScheme

theorem yields_identifier (identifier : String) :
    Yields (fun scheme => scheme.identifier = identifier) (ofEntries source identifier entries) :=
  .bind fun _ _ => .bind fun _ _ => .bind fun _ _ => .bind fun _ _ => .bind fun _ _ => .pure rfl

theorem yields_describedBy {identifier : String}
    (hkeys : ReadsDistinct (.securityScheme identifier) source entries) :
    Yields (Option.Rel (fun tree description =>
        ExchangeKeyed source tree.entries description.exchange ∧
          Annotated tree.entries description.annotations) (Entries.field? entries "describedBy"))
      (SecurityDescription.read source entries) := by
  unfold SecurityDescription.read
  cases hfield : Entries.field? entries "describedBy" with
  | none => exact .pure .none
  | some tree =>
    refine .bind fun own hown => ?_
    rw [Reading.result_monadLift] at hown
    obtain rfl := entries_of_entriesOf hown
    have hblocks : BlocksDistinct source tree.entries ["headers", "queryParameters"] := by
      cases tree with
      | mapping described => exact hkeys.described described hfield
      | _ => exact blocksDistinct_nil
    exact .bind fun exchange hexchange => .pure (.some
      ⟨Exchange.yields_read hblocks exchange hexchange,
        annotated_annotationsOf (hkeys.tree.field hfield).entries⟩)

theorem yields_ofEntries {identifier : String}
    (hkeys : ReadsDistinct (.securityScheme identifier) source entries) :
    Yields (fun scheme => (Document.Node.securityScheme scheme).Keyed source entries)
      (ofEntries source identifier entries) :=
  .bind fun _ _ => .bind fun _ _ => .bind fun _ _ => .bind fun _ _ =>
    .bind fun description hdescription => .pure
      ⟨hkeys.annotated, yields_describedBy hkeys description hdescription⟩

end SecurityScheme

/-! ## Libraries and documents -/

namespace Declarations

variable {fields : List String}
  (hfields : ["types", "traits", "resourceTypes", "annotationTypes", "securitySchemes"] ⊆ fields)
  (hdistinct : BlocksDistinct source entries fields)

include hfields hdistinct

theorem yields_types :
    Yields (DeclaredIn source entries "types" .type .type (·.name))
      (TypeDeclaration.readAll source (Entries.field? entries "types")) :=
  declaredIn_readBlock (hfields (by simp)) hdistinct
    (fun _ _ _ => Site.result_of_unnamed rfl rfl) fun _ name _ => TypeDeclaration.yields_name name

theorem yields_traits :
    Yields (DeclaredIn source entries "traits" .trait .trait (·.name))
      (TraitDefinition.readAll source (Entries.field? entries "traits")) :=
  declaredIn_readFragments (hfields (by simp)) hdistinct (fun _ => rfl) (fun _ _ _ => rfl)
    fun _ name _ => TraitDefinition.yields_name name

theorem yields_resourceTypes :
    Yields (DeclaredIn source entries "resourceTypes" .resourceType .resourceType (·.identifier))
      (ResourceType.readAll source (Entries.field? entries "resourceTypes")) :=
  declaredIn_readFragments (hfields (by simp)) hdistinct (fun _ => rfl) (fun _ _ _ => rfl)
    fun _ name _ => ResourceType.yields_identifier name

theorem yields_annotationTypes :
    Yields (DeclaredIn source entries "annotationTypes" .annotationType .annotationType (·.name))
      (AnnotationType.readAll source (Entries.field? entries "annotationTypes")) :=
  declaredIn_readBlock (hfields (by simp)) hdistinct (fun _ _ _ => Site.result_of_named rfl rfl)
    fun _ name _ => .mapError (AnnotationType.yields_name name)

theorem yields_securitySchemes :
    Yields (DeclaredIn source entries "securitySchemes" .securityScheme .securityScheme
        (·.identifier))
      (SecurityScheme.readAll source (Entries.field? entries "securitySchemes")) :=
  declaredIn_readFragments (hfields (by simp)) hdistinct (fun _ => rfl) (fun _ _ _ => rfl)
    fun _ name _ => SecurityScheme.yields_identifier name

theorem yields_readOfDocument :
    Yields (DeclarationsKeyed source entries) (readOfDocument source entries) := by
  refine .bind fun types htypes => .bind fun traits htraits => ?_
  refine .bind fun resourceTypes hresourceTypes => .bind fun annotationTypes hannotationTypes => ?_
  refine .bind fun securitySchemes hsecuritySchemes => .pure ?_
  exact {
    types := yields_types hfields hdistinct types htypes
    traits := yields_traits hfields hdistinct traits htraits
    resourceTypes := yields_resourceTypes hfields hdistinct resourceTypes hresourceTypes
    annotationTypes := yields_annotationTypes hfields hdistinct annotationTypes hannotationTypes
    securitySchemes := yields_securitySchemes hfields hdistinct securitySchemes hsecuritySchemes }

theorem yields_readOfLibrary :
    Yields (DeclarationsKeyed source entries) (readOfLibrary source entries) := by
  refine .bind fun types htypes => .bind fun resourceTypes hresourceTypes => ?_
  refine .bind fun traits htraits => .bind fun securitySchemes hsecuritySchemes => ?_
  refine .bind fun annotationTypes hannotationTypes => .pure ?_
  exact {
    types := yields_types hfields hdistinct types htypes
    traits := yields_traits hfields hdistinct traits htraits
    resourceTypes := yields_resourceTypes hfields hdistinct resourceTypes hresourceTypes
    annotationTypes := yields_annotationTypes hfields hdistinct annotationTypes hannotationTypes
    securitySchemes := yields_securitySchemes hfields hdistinct securitySchemes hsecuritySchemes }

end Declarations

namespace Library

theorem yields_identifier (identifier : String) :
    Yields (fun library => library.identifier = identifier) (read source identifier tree) := by
  have hplace (origin : Source) (content : Tree) :
      Yields (fun library => library.identifier = identifier)
        (readInPlace origin identifier content) := by
    unfold readInPlace
    split
    · exact .bind fun _ _ => .bind fun _ _ => .bind fun _ _ => .pure rfl
    · exact .bind fun _ _ => .bind fun _ _ => .bind fun _ _ => .pure rfl
    · exact .fail _
  rw [read]
  split
  · exact .bind fun included _ => hplace _ _
  · exact hplace _ _

theorem yields_readUses {fields : List String} (hfield : "uses" ∈ fields)
    (hdistinct : BlocksDistinct source entries fields) :
    Yields (DeclaredIn source entries "uses" .library .library (·.identifier))
      (readUses source entries) := by
  rw [readUses]
  split
  next hopen => exact .pure (declaredIn_none hopen)
  next tree hopen =>
    refine .bind fun slot hslot => ?_
    unfold readContent
    split
    next declared hcontent =>
      have hopens : OpensTo source entries "uses" slot.origin (.mapping declared) :=
        ⟨tree, slot, hopen, hslot, rfl, hcontent⟩
      refine .map fun items hitems => ?_
      rw [result_readEntries] at hitems
      exact declaredIn_of_collect hitems hopens
        (hdistinct "uses" hfield slot.origin declared hopens)
        (fun _ _ => Site.result_of_named rfl rfl) fun name _ => .mapError (yields_identifier name)
    next hcontent => exact .pure (declaredIn_of_null hopen hslot hcontent)
    next => exact .fail _

theorem yields_ofEntries {identifier : String} {readUsed : Reading (Block Library)}
    (hkeys : ReadsDistinct (.library identifier) source entries)
    (hused : Yields (DeclaredIn source entries "uses" .library .library (·.identifier)) readUsed) :
    Yields (fun library => (Document.Node.library library).Keyed source entries)
      (ofEntries source identifier entries readUsed) := by
  refine .bind fun _ _ => .bind fun declarations hdeclarations => .bind fun uses huses => .pure ?_
  refine ⟨?_, hused uses huses⟩
  exact Declarations.yields_readOfLibrary (by simp [SiteKind.blockFields]) hkeys.blocks
    declarations hdeclarations

theorem yields_readInPlace {identifier : String} {content : Tree}
    (hkeys : ReadsDistinct (.library identifier) source content.entries) :
    Yields (fun library => (Document.Node.library library).Keyed source content.entries)
      (readInPlace source identifier content) := by
  cases content with
  | mapping entries =>
    rw [readInPlace]
    exact yields_ofEntries hkeys (yields_readUses (by simp [SiteKind.blockFields]) hkeys.blocks)
  | null =>
    rw [readInPlace]
    exact yields_ofEntries hkeys (.pure declaredIn_nil)
  | _ =>
    unfold readInPlace
    exact .fail _

theorem yields_keyed (identifier : String)
    (hdistinct : (⟨.library identifier, source, tree⟩ : Site).Distinct) :
    Yields (fun found => (⟨.library identifier, source, tree⟩ : Site).KeysNode (.library found))
      (read source identifier tree) := by
  have hplace {origin : Source} {content : Tree}
      (hfollow : (SiteKind.follow source tree (.library identifier)).result =
        .ok (origin, content)) :
      Yields (fun found => (⟨.library identifier, source, tree⟩ : Site).KeysNode (.library found))
        (readInPlace origin identifier content) :=
    (yields_readInPlace (hdistinct origin content hfollow)).mono
      fun _ hfound => ⟨origin, content, hfollow, hfound⟩
  rw [read]
  split
  next target htarget =>
    refine .bind fun included hincluded => hplace ?_
    simp only [SiteKind.follow, htarget, Reading.result_bind, hincluded]
    rfl
  next htarget =>
    refine hplace ?_
    simp only [SiteKind.follow, htarget]
    rfl

end Library

/-- A chapter has the annotations of its mapping. -/
theorem Chapter.yields_read (hkeys : tree.UntaggedDistinct) :
    Yields (fun chapter => Annotated tree.entries chapter.annotations) (read source tree) := by
  cases tree with
  | mapping own =>
    exact .bind fun _ _ => .bind fun _ _ => .bind fun _ _ => .bind fun _ _ =>
      .pure (annotated_annotationsOf hkeys.entries)
  | _ => exact .fail _

theorem Chapter.yields_readAll (hkeys : (Tree.mapping entries).UntaggedDistinct) :
    Yields (ChaptersKeyed entries) (readAll source entries) := by
  unfold readAll
  split
  next hfield => exact .pure (.inl ⟨hfield, rfl⟩)
  next items hfield =>
    refine .map fun chapters hchapters => .inr ⟨items, hfield, ?_⟩
    rw [Block.elements_ofList]
    have hread (item : Tree) (hitem : item ∈ items) :
        Yields (fun chapter => Annotated item.entries chapter.annotations) (read source item) :=
      yields_read ((hkeys.field hfield).part hitem)
    exact Yields.mapM hread chapters hchapters
  next => exact .fail _

theorem Document.yields_keyed (hdistinct : (⟨.document, source, tree⟩ : Site).Distinct) :
    Yields (fun found => (⟨.document, source, tree⟩ : Site).KeysNode (.document found))
      (ofTree source tree) := by
  have hkeys := hdistinct source tree rfl
  cases tree with
  | mapping entries =>
    refine .bind fun _ _ => .bind fun _ _ => .bind fun _ _ => .bind fun _ _ => .bind fun _ _ => ?_
    refine .bind fun parameters hparameters => .bind fun _ _ => .bind fun _ _ => ?_
    refine .bind fun documentation hdocumentation => .bind fun declarations hdeclarations => ?_
    refine .bind fun _ _ => .bind fun uses huses => .bind fun resources hresources => .pure ?_
    refine ⟨source, .mapping entries, rfl, ?_, ?_, ?_, ?_, hkeys.annotated, ?_⟩
    · exact Declarations.yields_readOfDocument (by simp [SiteKind.blockFields]) hkeys.blocks
        declarations hdeclarations
    · exact Library.yields_readUses (by simp [SiteKind.blockFields]) hkeys.blocks uses huses
    · exact Resource.yields_readEntries hkeys.tree.entries resources hresources
    · exact Parameter.yields_readBlock (by simp [SiteKind.blockFields]) hkeys.blocks parameters
        hparameters
    · exact Chapter.yields_readAll hkeys.tree documentation hdocumentation
  | _ => exact .fail _

end Readers

/-! ## All nodes -/

/-- What is read at a site where the keys are distinct is a keyed node. -/
theorem Site.yields_keyed {site : Site} (hdistinct : site.Distinct) :
    Yields (fun node => ∀ found ∈ node, site.KeysNode found)
      (site.kind.read site.source site.tree) := by
  obtain ⟨kind, source, tree⟩ := site
  have some {α : Type} {reading : Reading α} {node : α → Document.Node}
      (h : Yields (fun value => (⟨kind, source, tree⟩ : Site).KeysNode (node value)) reading) :
      Yields (fun node => ∀ found ∈ node, (⟨kind, source, tree⟩ : Site).KeysNode found)
        (do return some (node (← reading))) := by
    refine .bind fun value hvalue => .pure ?_
    rintro found ⟨⟩
    exact h value hvalue
  have map {α : Type} {reading : Reading (Option α)} {node : α → Document.Node}
      (h : Yields (fun value => ∀ found ∈ value,
        (⟨kind, source, tree⟩ : Site).KeysNode (node found)) reading) :
      Yields (fun node => ∀ found ∈ node, (⟨kind, source, tree⟩ : Site).KeysNode found)
        (do return (← reading).map node) := by
    refine .bind fun value hvalue => .pure fun found hfound => ?_
    obtain ⟨inside, hinside, rfl⟩ := Option.mem_map.1 hfound
    exact h value hvalue inside hinside
  cases kind with
  | document => exact some (Document.yields_keyed hdistinct)
  | library identifier => exact some (Library.yields_keyed identifier hdistinct)
  | type name => exact some (TypeDeclaration.yields_keyed name hdistinct)
  | annotationType name => exact some (AnnotationType.yields_keyed name hdistinct)
  | trait name =>
    exact some (.ofFragment rfl hdistinct fun _ _ => TraitDefinition.yields_ofEntries)
  | resourceType identifier =>
    exact some (.ofFragment rfl hdistinct fun _ _ => ResourceType.yields_ofEntries)
  | securityScheme identifier =>
    exact some (.ofFragment rfl hdistinct fun _ _ => SecurityScheme.yields_ofEntries)
  | resource path => exact some (Resource.yields_keyed path hdistinct)
  | method verb optional => exact some (Method.yields_keyed verb optional hdistinct)
  | response code => exact some (Response.yields_keyed code hdistinct)
  | body => exact map (Body.yields_keyed hdistinct)
  | mediaType identifier => exact some (MediaTypeBody.yields_keyed identifier hdistinct)
  | queryString => exact map (Payload.yields_keyed hdistinct)
  | property name => exact some (Property.yields_keyed name hdistinct)
  | parameter name => exact some (Parameter.yields_keyed name hdistinct)
  | sample identifier => exact some (Example.yields_keyed identifier hdistinct)
  | dataType =>
    refine .bind fun _ _ => .pure fun found hfound => ?_
    cases hfound

namespace Document

/-- Where all mappings in the trees that a document is read from have keys that are distinct without
their tags, every node that the document reaches is read at a site from a mapping that its blocks
and its annotations are keyed by: their items are read off its entries, in order and each under the
key of its entry, no two of them have the same key, and a lookup with the key of one finds it. -/
theorem keyed_of_reaches {source : Source} {text : List Char} {tree : Tree} {document : Document}
    {node : Node} (h : (ofText source text).result = .ok document)
    (htree : (Fixup.readTree source.context.options text).result = .ok tree)
    (hdistinct : ∀ taken, (⟨.document, source, tree⟩ : Site).TakesUp taken → taken.UntaggedDistinct)
    (hnode : (Node.document document).Reaches node) :
    ∃ site, (⟨.document, source, tree⟩ : Site).Reaches site ∧ site.result = .ok (some node) ∧
      site.KeysNode node := by
  obtain ⟨found, hfound, hresult⟩ := exists_tree_of_ofText h
  rw [Except.ok.inj (hfound.symm.trans htree)] at hresult
  have hroot : (⟨.document, source, tree⟩ : Site).result = .ok (some (.document document)) := by
    rw [Site.result_of_unnamed rfl rfl, hresult]
    rfl
  obtain ⟨site, hsite, hresult⟩ := Site.exists_reaches_of_reaches hroot hnode
  refine ⟨site, hsite, hresult, ?_⟩
  exact Site.yields_keyed (Site.distinct_of_takesUp hdistinct hsite) (some node)
    (Site.result_read_of_result hresult) node rfl

/-- A document with two types. -/
def twoTypesText : String := "#%RAML 1.0\ntitle: Users\ntypes:\n A: string\n B: A\n"

/-- The types. -/
def twoTypesBlock : Entries := [(.string "A", .string "string"), (.string "B", .string "A")]

/-- The tree of the document. -/
def twoTypesTree : Tree :=
  .mapping [(.string "title", .string "Users"), (.string "types", .mapping twoTypesBlock)]

theorem untaggedDistinct_twoTypesTree : twoTypesTree.UntaggedDistinct := by
  have hscalar (text : String) : (Tree.string text).UntaggedDistinct := .of_parts .nil rfl
  have hblock : (Tree.mapping twoTypesBlock).UntaggedDistinct := by
    refine Tree.eachMapping_mapping.2 ⟨by decide, ?_⟩
    exact List.forall_mem_cons.2 ⟨hscalar _, List.forall_mem_singleton.2 (hscalar _)⟩
  refine Tree.eachMapping_mapping.2 ⟨by decide, ?_⟩
  exact List.forall_mem_cons.2 ⟨hscalar _, List.forall_mem_singleton.2 hblock⟩

theorem result_readTree_twoTypesText :
    (Fixup.readTree {} twoTypesText.toList).result = .ok twoTypesTree := by
  unfold twoTypesTree twoTypesBlock
  cbv

theorem result_ofTree_twoTypesTree :
    (ofTree ⟨.empty, .detached {}⟩ twoTypesTree).result =
      .ok {
        title := "Users"
        declarations.types := some [{ name := "A", facets := .ofExpression "string" },
          { name := "B", facets := .ofExpression "A" }] } := by
  unfold twoTypesTree twoTypesBlock
  rw [result_ofTree_of_types _ rfl, TypeDeclaration.readAll, readBlock,
    Source.openBlock_of_inline rfl]
  rfl

/-- Both types of the document are found. -/
theorem keyed_twoTypes :
    ∃ document, (ofString twoTypesText).result = .ok document ∧
      ∃ site, (⟨.document, ⟨.empty, .detached {}⟩, twoTypesTree⟩ : Site).Reaches site ∧
        site.result = .ok (some (.document document)) ∧ site.KeysNode (.document document) := by
  have hheader : Header.checkRoot twoTypesText.toList = .ok () := by cbv
  have hresult := (result_ofText_of_tree ⟨.empty, .detached {}⟩ hheader
    result_readTree_twoTypesText (by decide)).trans result_ofTree_twoTypesTree
  have hvisit : (⟨.document, ⟨.empty, .detached {}⟩, twoTypesTree⟩ : Site).visit.UntaggedDistinct :=
    .of_alone rfl untaggedDistinct_twoTypesTree
  have hdistinct (taken : Tree) (htaken : Site.TakesUp _ taken) : taken.UntaggedDistinct :=
    Site.untaggedDistinct_of_takesUp hvisit htaken
  exact ⟨_, hresult, keyed_of_reaches hresult result_readTree_twoTypesText hdistinct .refl⟩

end Document

end RamlDoc
