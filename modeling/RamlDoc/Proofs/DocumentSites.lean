import RamlDoc.Proofs.DeclarationSites

/-!
# Nodes come from sites

Every reader of nodes reads at the sites in its own (`Site.readsIn`). So whatever node a document
reaches is read at a site in that of the document (`Site.exists_reaches_of_reaches`), and every
error is ordinary or goes back to an inner site (`Site.error_cases`).
-/

namespace RamlDoc

open Yaml

section Readers

variable {source : Source} {entries : Entries} {tree content : Tree} {sites : Set Site}

/-! ## Operations -/

namespace Parameter

theorem readsIn_read (name : String) :
    ReadsIn (⟨.parameter name, source, tree⟩ : Site).inner
      (fun parameter => Document.Node.children (.parameter parameter)) (read source name tree) := by
  unfold read
  refine .bindOrdinary (source.ordinary_openSlot tree none) fun slot hslot => ?_
  split
  next => exact .pure (List.forall_mem_nil _)
  next => exact .pure (List.forall_mem_nil _)
  next entries hcontent =>
    refine ReadsIn.mono ?_ (Site.subset_inner_of_openSlot rfl hslot hcontent)
    refine ((DataType.readsIn_ofTree? slot.origin _).mono Set.subset_union_left).bind
      fun type _ _ => ?_
    refine .bindText fun displayName => .bindText fun description => ?_
    refine .bindMisfits (Field.misfits_of entries _ _ _) fun required _ => ?_
    refine .bindMisfits (Field.misfits_of entries _ _ _) fun pattern _ => ?_
    refine .bindMisfits (Field.misfits_strings entries _) fun admitted _ => ?_
    exact (Example.readsIn_readAll.mono Set.subset_union_right).bind fun examples _ hexamples =>
      .pure hexamples
  next => exact .fail rfl

theorem readsIn_readBlock (key construct field : String) :
    ReadsIn (Site.atBlock source entries field .parameter)
      (fun block => block.elements.map .parameter)
      (readBlock source key construct read (Entries.field? entries field)) :=
  .readBlock fun _ _ _ => Site.result_of_unnamed rfl rfl

end Parameter

namespace Payload

theorem readsIn_ofEntries :
    ReadsIn (Site.ofPayload source entries) Document.Node.ofPayload (ofEntries source entries) := by
  unfold ofEntries
  refine ((DataType.readsIn_ofTree? source _).mono ?_).bind fun type _ _ => ?_
  · exact fun _ h => .inl (.inl h)
  refine ((Property.readsIn_readAll _).mono ?_).bind fun properties _ hproperties => ?_
  · exact fun _ h => .inl (.inr h)
  refine (Example.readsIn_readAll.mono Set.subset_union_right).bind fun examples _ hexamples => ?_
  exact .pure (List.forall_mem_append.2 ⟨hproperties, hexamples⟩)

theorem readsIn_readQueryString :
    ReadsIn (Site.atField source entries "queryString" .queryString)
      (fun payload => payload.toList.map .queryString) (readQueryString source entries) := by
  refine .ofField (fun hnone => ?_) fun tree hsome => ?_
  · unfold readQueryString
    rw [hnone]
  · refine Site.result_of_field rfl ?_
    unfold SiteKind.read readQueryString
    rw [hsome, field?_soleField hsome]

/-- The payload of a query string. -/
theorem readsIn_ofSoleField :
    ReadsIn (⟨.queryString, source, tree⟩ : Site).inner
      (fun payload => payload.elim [] Document.Node.ofPayload)
      (readQueryString source (soleField "queryString" tree)) := by
  unfold readQueryString
  split
  next => exact .pure (List.forall_mem_nil _)
  next => exact .pure (List.forall_mem_nil _)
  next inner hfield =>
    obtain rfl := eq_of_field?_soleField hfield
    have hinner : Site.ofEntries source inner .queryString ⊆
        (⟨.queryString, source, .mapping inner⟩ : Site).inner := Site.subset_inner rfl
    exact (readsIn_ofEntries.mono hinner).map fun _ => rfl
  next => exact .fail rfl

end Payload

namespace MediaTypeBody

theorem readsIn_read (identifier : MediaType) :
    ReadsIn (⟨.mediaType identifier, source, tree⟩ : Site).inner
      (fun body => Document.Node.children (.mediaType body)) (read source identifier tree) := by
  unfold read
  refine .bindOrdinary (source.ordinary_openSlot tree none) fun slot hslot => ?_
  split
  next => exact .pure (List.forall_mem_nil _)
  next => exact .pure (List.forall_mem_nil _)
  next entries hcontent =>
    refine ReadsIn.mono ?_ (Site.subset_inner_of_openSlot rfl hslot hcontent)
    exact Payload.readsIn_ofEntries.bind fun payload _ hpayload => .pure hpayload
  next => exact .fail rfl

theorem readsIn_readAll :
    ReadsIn (Site.ofMediaTypes source entries) (List.map .mediaType) (readAll source entries) := by
  refine .ofLoop (result_readAll source entries) fun entry hentry result hresult => ?_
  unfold outcome? at hresult
  split at hresult
  next error hkey =>
    obtain rfl := Option.some.inj hresult
    exact .fail (Error.isOrdinary_of_isMisfit (misfits_keyText _ _ error hkey))
  next identifier hkey =>
    split at hresult
    next hvalid =>
      obtain rfl := Option.some.inj hresult
      have hmem : ⟨.mediaType identifier, source, entry.2⟩ ∈ Site.ofMediaTypes source entries := by
        refine Site.mem_atKeys hentry ?_
        rw [asString?_of_keyText hkey, Option.filter_some, if_pos hvalid]
        rfl
      exact .ofResult hmem (Site.result_of_unnamed rfl rfl)
    next => cases hresult

end MediaTypeBody

namespace Body

theorem readsIn_read :
    ReadsIn (Site.atField source entries "body" .body) (fun body => body.toList.map .body)
      (read source entries) := by
  refine .ofField (fun hnone => ?_) fun tree hsome => ?_
  · unfold read
    rw [hnone]
  · refine Site.result_of_field rfl ?_
    unfold SiteKind.read read
    rw [hsome, field?_soleField hsome]

theorem readsIn_ofSoleField :
    ReadsIn (⟨.body, source, tree⟩ : Site).inner
      (fun body => body.elim [] fun body => Document.Node.children (.body body))
      (read source (soleField "body" tree)) := by
  unfold read
  split
  next => exact .pure (List.forall_mem_nil _)
  next content hfield =>
    obtain rfl := eq_of_field?_soleField hfield
    refine .bindOrdinary (source.ordinary_openSlot _ none) fun slot hslot => ?_
    unfold ofTree
    split
    next => exact .pure (List.forall_mem_nil _)
    next => exact .pure (List.forall_mem_nil _)
    next entries hcontent =>
      refine ReadsIn.mono ?_ (Site.subset_inner_of_openSlot rfl hslot hcontent)
      refine (MediaTypeBody.readsIn_readAll.mono Set.subset_union_right).bind
        fun mediaTypes _ hmediaTypes => ?_
      refine (Payload.readsIn_ofEntries.mono ?_).bind fun payload _ hpayload => ?_
      · exact Set.subset_union_left
      refine .pure (List.forall_mem_append.2 ⟨hpayload, ?_⟩)
      rwa [Block.elements_ofList]
    next => exact .fail rfl

end Body

namespace Response

theorem readsIn_read (code : Nat) :
    ReadsIn (⟨.response code, source, tree⟩ : Site).inner
      (fun response => Document.Node.children (.response response)) (read source code tree) := by
  refine .bindMisfits (misfits_entriesOf _ tree) fun entries hentries => ?_
  refine ReadsIn.mono ?_ (Site.subset_inner_of_entriesOf rfl hentries (by simp [Site.ofEntries]))
  refine .bindText fun description => ?_
  refine ((Parameter.readsIn_readBlock _ _ _).mono Set.subset_union_left).bind
    fun headers _ hheaders => ?_
  refine (Body.readsIn_read.mono Set.subset_union_right).bind fun body _ hbody => .pure ?_
  exact List.forall_mem_append.2 ⟨hheaders, hbody⟩

theorem readsIn_readAll :
    ReadsIn (Site.ofResponses source entries) (fun block => block.elements.map .response)
      (readAll source entries) := by
  unfold readAll
  split
  next => exact .pure (List.forall_mem_nil _)
  next content hfield =>
    refine .bindMisfits (misfits_entriesOf _ content) fun codes hcodes => ?_
    suffices h : ReadsIn (Site.ofResponses source entries) (List.map .response)
        (ofCodes source codes) from h.map fun items => by rw [Block.elements_ofList]
    refine .ofLoop (result_ofCodes source codes) fun entry hentry result hresult => ?_
    obtain ⟨code, hcode, rfl⟩ := Option.map_eq_some_iff.1 hresult
    refine .ofResult ⟨codes, ?_, Site.mem_atKeys hentry (by rw [hcode]; rfl)⟩
      (Site.result_of_unnamed rfl rfl)
    rw [hfield, mapping_of_entriesOf hcodes (List.ne_nil_of_mem hentry)]

end Response

namespace Exchange

theorem readsIn_readQueryParameters :
    ReadsIn (Site.ofExchange source entries)
      (fun block => block.elements.map .property) (readQueryParameters source entries) :=
  (Property.readsIn_readAll _).mono fun _ h => .inl (.inl (.inr h))

theorem readsIn_readHeaders :
    ReadsIn (Site.ofExchange source entries)
      (fun block => block.elements.map .parameter) (Parameter.readHeaders source entries) :=
  (Parameter.readsIn_readBlock _ _ _).mono fun _ h => .inl (.inl (.inl h))

/-- The query string and the responses, which every exchange has behind its parameters. -/
theorem readsIn_readRest {headers : Block Parameter} {queryParameters : Block Property}
    (hheaders : ∀ node ∈ headers.elements.map .parameter,
      ReadAt (Site.ofExchange source entries) node)
    (hqueryParameters : ∀ node ∈ queryParameters.elements.map .property,
      ReadAt (Site.ofExchange source entries) node) :
    ReadsIn (Site.ofExchange source entries) Document.Node.ofExchange (do
      let queryString ← Payload.readQueryString source entries
      let responses ← Response.readAll source entries
      return { headers, queryParameters, queryString, responses }) := by
  refine (Payload.readsIn_readQueryString.mono ?_).bind fun queryString _ hqueryString => ?_
  · exact fun _ h => .inl (.inr h)
  refine (Response.readsIn_readAll.mono ?_).bind fun responses _ hresponses => ?_
  · exact Set.subset_union_right
  refine .pure ?_
  simp only [Document.Node.ofExchange, List.forall_mem_append]
  exact ⟨⟨⟨hheaders, hqueryParameters⟩, hqueryString⟩, hresponses⟩

theorem readsIn_read :
    ReadsIn (Site.ofExchange source entries) Document.Node.ofExchange (read source entries) :=
  readsIn_readHeaders.bind fun _ _ hheaders =>
    readsIn_readQueryParameters.bind fun _ _ hqueryParameters =>
      readsIn_readRest hheaders hqueryParameters

theorem readsIn_readOfMethod :
    ReadsIn (Site.ofExchange source entries) Document.Node.ofExchange
      (readOfMethod source entries) :=
  readsIn_readQueryParameters.bind fun _ _ hqueryParameters =>
    readsIn_readHeaders.bind fun _ _ hheaders => readsIn_readRest hheaders hqueryParameters

end Exchange

namespace Method

theorem readsIn_read (verb : Verb) (optional : Bool) :
    ReadsIn (⟨.method verb optional, source, tree⟩ : Site).inner
      (fun method => Document.Node.children (.method method)) (read source verb optional tree) := by
  refine .bindMisfits (misfits_entriesOf _ tree) fun entries hentries => ?_
  refine ReadsIn.mono ?_ (Site.subset_inner_of_entriesOf rfl hentries (by simp [Site.ofEntries]))
  refine .bindText fun displayName => .bindText fun description => ?_
  refine (Exchange.readsIn_readOfMethod.mono Set.subset_union_left).bind
    fun exchange _ hexchange => ?_
  refine (Body.readsIn_read.mono Set.subset_union_right).bind fun body _ hbody => ?_
  refine .bindMisfits (Protocol.misfits_readAll _) fun protocols _ => ?_
  refine .bindMisfits (misfits_readTraitUsages _) fun traits _ => ?_
  refine .bindMisfits (misfits_readSecuredBy _) fun securedBy _ => .pure ?_
  exact List.forall_mem_append.2 ⟨hexchange, hbody⟩

theorem readsIn_readAll (allowOptional : Bool) :
    ReadsIn (Site.ofMethods source entries allowOptional)
      (fun block => block.elements.map .method) (readAll source allowOptional entries) := by
  suffices h : ReadsIn (Site.ofMethods source entries allowOptional) (List.map .method)
      (ofVerbs source allowOptional entries) from h.map fun items => by rw [Block.elements_ofList]
  refine .ofLoop (result_ofVerbs source allowOptional entries) fun entry hentry result hresult => ?_
  obtain ⟨⟨verb, optional⟩, hverb, rfl⟩ := Option.map_eq_some_iff.1 hresult
  exact .ofResult (Site.mem_atKeys hentry (by rw [hverb]; rfl)) (Site.result_of_unnamed rfl rfl)

end Method

/-! ## Resources and templates -/

namespace Resource

theorem readsIn_readEntries :
    ReadsIn (Site.ofResources source entries) (List.map .resource)
      (readEntries source entries) := by
  refine .ofLoop (result_readEntries source entries) fun entry hentry result hresult => ?_
  obtain ⟨path, hpath, rfl⟩ := Option.map_eq_some_iff.1 hresult
  exact .ofResult (Site.mem_atKeys hentry (by rw [hpath]; rfl)) (Site.result_of_unnamed rfl rfl)

theorem readsIn_ofEntries (path : String) {readChildren : Reading (List Resource)}
    (hchildren : ReadsIn (Site.ofResources source entries) (List.map .resource) readChildren) :
    ReadsIn (Site.ofEntries source entries (.resource path))
      (fun resource => Document.Node.children (.resource resource))
      (ofEntries source path entries readChildren) := by
  refine .bindText fun displayName => .bindText fun description => ?_
  refine ((Method.readsIn_readAll false).mono ?_).bind fun methods _ hmethods => ?_
  · exact fun _ h => .inl (.inl h)
  refine (hchildren.mono fun _ h => .inl (.inr h)).bind fun resources _ hresources => ?_
  refine .bindMisfits (misfits_readTraitUsages _) fun traits _ => ?_
  refine .bindMisfits (misfits_mapM_readUsage _ _) fun resourceType _ => ?_
  refine .bindMisfits (misfits_readSecuredBy _) fun securedBy _ => ?_
  refine ((Parameter.readsIn_readBlock _ _ _).mono Set.subset_union_right).bind
    fun uriParameters _ huriParameters => .pure ?_
  simp only [Document.Node.children, children, Block.elements_ofList, List.forall_mem_append]
  exact ⟨⟨hmethods, hresources⟩, huriParameters⟩

theorem readsIn_read (path : String) :
    ReadsIn (⟨.resource path, source, tree⟩ : Site).inner
      (fun resource => Document.Node.children (.resource resource)) (read source path tree) := by
  rw [read]
  refine .bindOrdinary (source.ordinary_openSlot tree none) fun slot hslot => ?_
  unfold readContent
  split
  next entries hcontent =>
    exact (readsIn_ofEntries path readsIn_readEntries).mono
      (Site.subset_inner_of_openSlot rfl hslot hcontent)
  next =>
    refine (readsIn_ofEntries path (.pure (List.forall_mem_nil _))).mono ?_
    simp [Site.ofEntries, Site.ofMethods, Site.ofResources]
  next => exact .fail rfl

end Resource

namespace TraitDefinition

theorem readsIn_ofEntries (name : String) :
    ReadsIn (Site.ofEntries source entries (.trait name))
      (fun trait => Document.Node.children (.trait trait)) (ofEntries source name entries) := by
  refine .bindText fun usage => .bindText fun displayName => .bindText fun description => ?_
  refine (Exchange.readsIn_read.mono Set.subset_union_left).bind fun exchange _ hexchange => ?_
  refine (Body.readsIn_read.mono Set.subset_union_right).bind fun body _ hbody => ?_
  refine .bindMisfits (Protocol.misfits_readAll _) fun protocols _ => ?_
  refine .bindMisfits (misfits_readSecuredBy _) fun securedBy _ => .pure ?_
  exact List.forall_mem_append.2 ⟨hexchange, hbody⟩

end TraitDefinition

namespace ResourceType

theorem readsIn_ofEntries (identifier : String) :
    ReadsIn (Site.ofEntries source entries (.resourceType identifier))
      (fun type => Document.Node.children (.resourceType type))
      (ofEntries source identifier entries) := by
  refine .bindText fun usage => .bindText fun displayName => .bindText fun description => ?_
  refine ((Method.readsIn_readAll true).mono Set.subset_union_left).bind
    fun methods _ hmethods => ?_
  refine ((Parameter.readsIn_readBlock _ _ _).mono Set.subset_union_right).bind
    fun uriParameters _ huriParameters => ?_
  refine .bindMisfits (misfits_readTraitUsages _) fun traits _ => ?_
  refine .bindMisfits (misfits_readSecuredBy _) fun securedBy _ => .pure ?_
  exact List.forall_mem_append.2 ⟨hmethods, huriParameters⟩

end ResourceType

namespace SecurityScheme

theorem readsIn_ofEntries (identifier : String) :
    ReadsIn (Site.ofEntries source entries (.securityScheme identifier))
      (fun scheme => Document.Node.children (.securityScheme scheme))
      (ofEntries source identifier entries) := by
  refine .bindMisfits (SecurityType.misfits_read _) fun type _ => ?_
  refine .bindMisfits (SecuritySettings.misfits_read _ _) fun settings _ => ?_
  refine .bindText fun displayName => .bindText fun description => ?_
  suffices h : ReadsIn (Site.ofEntries source entries (.securityScheme identifier))
      (fun described => described.toList.flatMap fun description =>
        Document.Node.ofExchange description.exchange)
      (SecurityDescription.read source entries) from
    h.bind fun described _ hdescribed => .pure hdescribed
  unfold SecurityDescription.read
  split
  next => exact .pure (List.forall_mem_nil _)
  next content hfield =>
    refine .bindMisfits (misfits_entriesOf _ content) fun described hentries => ?_
    have hsites : Site.ofExchange source described ⊆
        Site.ofEntries source entries (.securityScheme identifier) := by
      cases described with
      | nil => simp
      | cons entry described =>
        rw [mapping_of_entriesOf hentries (List.cons_ne_nil _ _)] at hfield
        exact fun site hsite => ⟨_, hfield, hsite⟩
    refine (Exchange.readsIn_read.mono hsites).bind fun exchange _ hexchange => .pure ?_
    simpa using hexchange

end SecurityScheme

/-- What is read of a fragment is read of the mapping that stands in its place. -/
theorem readsIn_readFragment {α : Type} {fragment : FragmentKind} {kind : SiteKind} {name : String}
    {nodes : α → List Document.Node} {ofEntries : Source → String → Entries → Reading α}
    (hopens : kind.opens? = some (some fragment))
    (hnil : ∀ source, Site.ofEntries source [] kind = ∅)
    (h : ∀ source entries,
      ReadsIn (Site.ofEntries source entries kind) nodes (ofEntries source name entries)) :
    ReadsIn (⟨kind, source, tree⟩ : Site).inner nodes
      (readFragment fragment ofEntries source name tree) := by
  refine .bindOrdinary (source.ordinary_openSlot tree _) fun slot hslot => ?_
  refine .bindMisfits (misfits_entriesOf _ _) fun entries hentries => ?_
  exact (h _ entries).mono
    (Site.subset_inner_of_entriesOf (Site.result_follow_of_openSlot hopens hslot) hentries (hnil _))

/-! ## Libraries and documents -/

namespace Declarations

theorem readsIn_types :
    ReadsIn (Site.ofDeclarations source entries) (fun block => block.elements.map .type)
      (TypeDeclaration.readAll source (Entries.field? entries "types")) :=
  (ReadsIn.readBlock fun _ _ _ => Site.result_of_unnamed rfl rfl).mono
    fun _ h => .inl (.inl (.inl (.inl h)))

theorem readsIn_traits :
    ReadsIn (Site.ofDeclarations source entries) (fun block => block.elements.map .trait)
      (TraitDefinition.readAll source (Entries.field? entries "traits")) := by
  unfold TraitDefinition.readAll readFragments
  exact (ReadsIn.readBlock fun _ _ _ => Site.result_of_named rfl rfl).mono
    fun _ h => .inl (.inl (.inl (.inr h)))

theorem readsIn_resourceTypes :
    ReadsIn (Site.ofDeclarations source entries) (fun block => block.elements.map .resourceType)
      (ResourceType.readAll source (Entries.field? entries "resourceTypes")) := by
  unfold ResourceType.readAll readFragments
  exact (ReadsIn.readBlock fun _ _ _ => Site.result_of_named rfl rfl).mono
    fun _ h => .inl (.inl (.inr h))

theorem readsIn_annotationTypes :
    ReadsIn (Site.ofDeclarations source entries) (fun block => block.elements.map .annotationType)
      (AnnotationType.readAll source (Entries.field? entries "annotationTypes")) :=
  (ReadsIn.readBlock fun _ _ _ => Site.result_of_named rfl rfl).mono fun _ h => .inl (.inr h)

theorem readsIn_securitySchemes :
    ReadsIn (Site.ofDeclarations source entries) (fun block => block.elements.map .securityScheme)
      (SecurityScheme.readAll source (Entries.field? entries "securitySchemes")) := by
  unfold SecurityScheme.readAll readFragments
  exact (ReadsIn.readBlock fun _ _ _ => Site.result_of_named rfl rfl).mono
    fun _ h => .inr h

theorem readsIn_readOfDocument :
    ReadsIn (Site.ofDeclarations source entries) Document.Node.ofDeclarations
      (readOfDocument source entries) := by
  refine readsIn_types.bind fun types _ htypes => ?_
  refine readsIn_traits.bind fun traits _ htraits => ?_
  refine readsIn_resourceTypes.bind fun resourceTypes _ hresourceTypes => ?_
  refine readsIn_annotationTypes.bind fun annotationTypes _ hannotationTypes => ?_
  refine readsIn_securitySchemes.bind fun securitySchemes _ hsecuritySchemes => .pure ?_
  simp only [Document.Node.ofDeclarations, List.forall_mem_append]
  exact ⟨⟨⟨⟨htypes, htraits⟩, hresourceTypes⟩, hannotationTypes⟩, hsecuritySchemes⟩

theorem readsIn_readOfLibrary :
    ReadsIn (Site.ofDeclarations source entries) Document.Node.ofDeclarations
      (readOfLibrary source entries) := by
  refine readsIn_types.bind fun types _ htypes => ?_
  refine readsIn_resourceTypes.bind fun resourceTypes _ hresourceTypes => ?_
  refine readsIn_traits.bind fun traits _ htraits => ?_
  refine readsIn_securitySchemes.bind fun securitySchemes _ hsecuritySchemes => ?_
  refine readsIn_annotationTypes.bind fun annotationTypes _ hannotationTypes => .pure ?_
  simp only [Document.Node.ofDeclarations, List.forall_mem_append]
  exact ⟨⟨⟨⟨htypes, htraits⟩, hresourceTypes⟩, hannotationTypes⟩, hsecuritySchemes⟩

end Declarations

namespace Library

theorem readsIn_readEntries
    (h : ∀ entry ∈ entries, ∀ name, entry.1.asString? = some name →
      ⟨.library name, source, entry.2⟩ ∈ sites) :
    ReadsIn sites (List.map .library) (readEntries source entries) := by
  induction entries with
  | nil =>
    rw [readEntries]
    exact .pure (List.forall_mem_nil _)
  | cons entry entries ih =>
    rw [readEntries]
    refine .bindMisfits (misfits_keyText _ entry.1) fun name hname => ?_
    have hlibrary : ReadsIn sites (fun library => [.library library])
        ((read source name entry.2).mapError (.failed .library name)) :=
      .ofSite (h entry List.mem_cons_self name (asString?_of_keyText hname))
        (Site.result_of_named rfl rfl)
    refine hlibrary.bind fun library _ hlibrary => ?_
    have hrest := ih fun other hother => h other (List.mem_cons_of_mem _ hother)
    exact hrest.bind fun libraries _ hlibraries => .pure (List.forall_mem_cons.2
      ⟨List.forall_mem_singleton.1 hlibrary, hlibraries⟩)

theorem readsIn_readUses :
    ReadsIn (Site.atBlock source entries "uses" .library)
      (fun block => (Block.elements block).map .library) (readUses source entries) := by
  rw [readUses]
  split
  next => exact .pure (List.forall_mem_nil _)
  next tree hfield =>
    refine .bindOrdinary (source.ordinary_openBlock tree) fun slot hslot => ?_
    unfold readContent
    split
    next declared hcontent =>
      refine (readsIn_readEntries fun entry hentry name hname => ?_).map fun items => by
        rw [Block.elements_ofList]
      exact ⟨tree, slot, declared, hfield, hslot, hcontent,
        Site.mem_atKeys hentry (by simp only [hname, Option.map_some])⟩
    next => exact .pure (List.forall_mem_nil _)
    next => exact .fail rfl

theorem readsIn_readInPlace {origin : Source} (identifier : String)
    (h : (SiteKind.follow source tree (.library identifier)).result = .ok (origin, content)) :
    ReadsIn (⟨.library identifier, source, tree⟩ : Site).inner
      (fun library => Document.Node.children (.library library))
      (readInPlace origin identifier content) := by
  have hentries : ∀ entries readUsed, ReadsIn (Site.atBlock origin entries "uses" .library)
      (fun block => (Block.elements block).map .library) readUsed →
      ReadsIn (Site.ofEntries origin entries (.library identifier))
        (fun library => Document.Node.children (.library library))
        (ofEntries origin identifier entries readUsed) := by
    intro entries readUsed hused
    refine .bindText fun usage => ?_
    refine (Declarations.readsIn_readOfLibrary.mono Set.subset_union_left).bind
      fun declarations _ hdeclarations => ?_
    refine (hused.mono Set.subset_union_right).bind fun uses _ huses => .pure ?_
    exact List.forall_mem_append.2 ⟨hdeclarations, huses⟩
  cases content with
  | mapping entries =>
    rw [readInPlace]
    exact (hentries entries _ readsIn_readUses).mono (Site.subset_inner h)
  | null =>
    rw [readInPlace]
    refine (hentries [] _ (.pure (List.forall_mem_nil _))).mono ?_
    simp [Site.ofEntries, Site.ofDeclarations]
  | _ =>
    unfold readInPlace
    exact .fail rfl

theorem readsIn_read (identifier : String) :
    ReadsIn (⟨.library identifier, source, tree⟩ : Site).inner
      (fun library => Document.Node.children (.library library)) (read source identifier tree) := by
  rw [read]
  split
  next target htarget =>
    refine .bindOrdinary (source.ordinary_resolveTarget target _) fun included hincluded => ?_
    refine readsIn_readInPlace identifier ?_
    simp only [SiteKind.follow, htarget, Reading.result_bind, hincluded]
    rfl
  next hinPlace =>
    refine readsIn_readInPlace identifier ?_
    simp only [SiteKind.follow, hinPlace]
    rfl

end Library

theorem Document.readsIn_ofTree :
    ReadsIn (⟨.document, source, tree⟩ : Site).inner
      (fun document => Node.children (.document document))
      (ofTree source tree) := by
  have hchapters : ∀ entries, Ordinary (Chapter.readAll source entries).result := by
    intro entries
    unfold Chapter.readAll
    split
    · exact .ok _
    · rw [Reading.result_map, Reading.result_mapM]
      refine .map _ (.mapM fun item _ => ?_)
      unfold Chapter.read
      split
      · simp only [Reading.result_bind, Reading.result_monadLift]
        refine (Field.ordinary_text _ _ _).bind fun title _ => ?_
        refine (Field.misfits_required _ _ _).ordinary.bind fun title _ => ?_
        refine (Field.ordinary_text _ _ _).bind fun content _ => ?_
        exact (Field.misfits_required _ _ _).ordinary.bind fun content _ => .ok _
      · exact .error rfl
    · exact .error rfl
  unfold ofTree
  split
  next entries =>
    have hinner : Site.ofEntries source entries .document ⊆
        (⟨.document, source, .mapping entries⟩ : Site).inner := Site.subset_inner rfl
    refine ReadsIn.mono ?_ hinner
    refine .bindText fun title => .bindMisfits (Field.misfits_required _ _ _) fun title _ => ?_
    refine .bindText fun description => ?_
    refine .bindMisfits (Field.misfits_of entries _ _ _) fun version _ => ?_
    refine .bindMisfits (Field.misfits_of entries _ _ _) fun baseUri _ => ?_
    refine ((Parameter.readsIn_readBlock _ _ _).mono Set.subset_union_right).bind
      fun baseUriParameters _ hparameters => ?_
    refine .bindMisfits (Protocol.misfits_readAll _) fun protocols _ => ?_
    refine .bindMisfits (Field.misfits_strings entries _) fun mediaTypes _ => ?_
    refine .bindOrdinary (hchapters entries) fun documentation _ => ?_
    refine (Declarations.readsIn_readOfDocument.mono ?_).bind fun declarations _ hdeclarations => ?_
    · exact fun _ h => .inl (.inl (.inl h))
    refine .bindMisfits (misfits_readSecuredBy _) fun securedBy _ => ?_
    refine (Library.readsIn_readUses.mono fun _ h => .inl (.inl (.inr h))).bind
      fun uses _ huses => ?_
    refine (Resource.readsIn_readEntries.mono fun _ h => .inl (.inr h)).bind
      fun resources _ hresources => .pure ?_
    simp only [Node.children, Block.elements_ofList, List.forall_mem_append]
    exact ⟨⟨⟨hdeclarations, huses⟩, hresources⟩, hparameters⟩
  next => exact .fail rfl
  next => exact .fail rfl

end Readers

/-! ## All sites -/

namespace Site

/-- What a site gives holds nodes that its inner sites give, and an error of a site is ordinary or
that of an inner one. -/
theorem readsIn {site : Site} (h : site.kind ≠ .dataType) :
    ReadsIn site.inner (fun node => node.elim [] Document.Node.children)
      (site.kind.read site.source site.tree) := by
  obtain ⟨kind, source, tree⟩ := site
  have some {α : Type} {reading : Reading α} {node : α → Document.Node} {sites : Set Site}
      (h : ReadsIn sites (fun value => (node value).children) reading) :
      ReadsIn sites (fun node => node.elim [] Document.Node.children)
        (do return some (node (← reading))) :=
    h.bind fun _ _ hvalue => .pure hvalue
  have map {α : Type} {reading : Reading (Option α)} {node : α → Document.Node} {sites : Set Site}
      (h : ReadsIn sites (fun value => value.elim [] fun value => (node value).children) reading) :
      ReadsIn sites (fun node => node.elim [] Document.Node.children)
        (do return (← reading).map node) :=
    h.bind fun value _ hvalue => .pure (by cases value <;> exact hvalue)
  cases kind with
  | document => exact some Document.readsIn_ofTree
  | library identifier => exact some (Library.readsIn_read identifier)
  | type name => exact some (TypeDeclaration.readsIn_read name)
  | annotationType name => exact some (AnnotationType.readsIn_read name)
  | trait name =>
    exact some (readsIn_readFragment rfl (fun _ => by simp [ofEntries])
      fun _ _ => TraitDefinition.readsIn_ofEntries name)
  | resourceType identifier =>
    exact some (readsIn_readFragment rfl (fun _ => by simp [ofEntries, ofMethods])
      fun _ _ => ResourceType.readsIn_ofEntries identifier)
  | securityScheme identifier =>
    exact some (readsIn_readFragment rfl
      (fun _ => by simp [ofEntries, Entries.field?, Entries.get?])
      fun _ _ => SecurityScheme.readsIn_ofEntries identifier)
  | resource path => exact some (Resource.readsIn_read path)
  | method verb optional => exact some (Method.readsIn_read verb optional)
  | response code => exact some (Response.readsIn_read code)
  | body => exact map Body.readsIn_ofSoleField
  | mediaType identifier => exact some (MediaTypeBody.readsIn_read identifier)
  | queryString => exact map Payload.readsIn_ofSoleField
  | property name => exact some (Property.readsIn_read name)
  | parameter name => exact some (Parameter.readsIn_read name)
  | sample identifier => exact some (Example.readsIn_read identifier)
  | dataType => exact absurd rfl h

/-- One site is in the other, at any depth. -/
def Reaches : Site → Site → Prop := Relation.ReflTransGen fun outer inside => inside ∈ outer.inner

theorem result_read_of_result {site : Site} {node : Option Document.Node}
    (h : site.result = .ok node) : (site.kind.read site.source site.tree).result = .ok node := by
  unfold result at h
  cases hread : (site.kind.read site.source site.tree).result with
  | error error =>
    rw [hread] at h
    cases h
  | ok found =>
    rw [hread] at h
    exact congrArg _ (Except.ok.inj h)

/-- The nodes in a node that is read at a site are read at inner sites. -/
theorem readAt_of_mem_children {site : Site} {node child : Document.Node}
    (h : site.result = .ok (some node)) (hchild : child ∈ node.children) :
    ReadAt site.inner child := by
  have hread := result_read_of_result h
  have hkind : site.kind ≠ .dataType := by
    intro hkind
    rw [hkind, SiteKind.read, Reading.result_bind] at hread
    obtain ⟨type, -, htype⟩ := exists_of_bind_eq_ok hread
    cases htype
  exact (readsIn hkind).nodes (some node) hread child hchild

/-- Whatever a node that is read at a site reaches is read at a site in it. -/
theorem exists_reaches_of_reaches {site : Site} {node found : Document.Node}
    (h : site.result = .ok (some node)) (hfound : node.Reaches found) :
    ∃ inside, site.Reaches inside ∧ inside.result = .ok (some found) := by
  induction hfound with
  | refl => exact ⟨site, .refl, h⟩
  | tail _ hchild ih =>
    obtain ⟨inside, hinside, hread⟩ := ih
    obtain ⟨inner, hinner, hread⟩ := readAt_of_mem_children hread hchild
    exact ⟨inner, hinside.tail hinner, hread⟩

/-- An error of a site where a node is read is ordinary or that of an inner site, as it is told
outside. -/
theorem error_cases {site : Site} {error : Error} (hkind : site.kind ≠ .dataType)
    (h : site.result = .error error) :
    ∃ cause, error = site.kind.tell cause ∧
      (cause.isOrdinary ∨ ∃ inside ∈ site.inner, inside.result = .error cause) := by
  unfold result at h
  cases hread : (site.kind.read site.source site.tree).result with
  | error cause =>
    rw [hread] at h
    exact ⟨cause, (Except.error.inj h).symm, (readsIn hkind).errors cause hread⟩
  | ok found =>
    rw [hread] at h
    cases h

end Site

end RamlDoc
