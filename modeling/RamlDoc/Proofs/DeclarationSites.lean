import RamlDoc.Proofs.EntryLoops
import RamlDoc.Proofs.NodeSites

/-!
# Declarations come from sites

`ReadsIn` says that a reader makes its nodes at given sites and that its errors are ordinary or
arise there. It is kept by the steps that readers are made of. The readers of types, properties and
annotation types read at their inner sites.
-/

namespace RamlDoc

open Yaml

/-- A node is read at one of the sites. -/
def ReadAt (sites : Set Site) (node : Document.Node) : Prop :=
  ∃ site ∈ sites, site.result = .ok (some node)

/-- The nodes in what is read are read at the sites. An error is ordinary or arises there. -/
structure ReadsIn {α : Type} (sites : Set Site) (nodes : α → List Document.Node)
    (reading : Reading α) : Prop where
  nodes : ∀ value, reading.result = .ok value → ∀ node ∈ nodes value, ReadAt sites node
  errors : ∀ error, reading.result = .error error →
    error.isOrdinary ∨ ∃ site ∈ sites, site.result = .error error

namespace Site

variable {source : Source} {kind : SiteKind} {tree : Tree}
  {α : Type} {reading : Reading α} {node : α → Document.Node}

theorem result_of_unnamed (hnamed : kind.named? = none)
    (hread : kind.read source tree = do return some (node (← reading))) :
    (⟨kind, source, tree⟩ : Site).result = (some ∘ node) <$> reading.result := by
  unfold result
  rw [hread, Reading.result_bind]
  cases reading.result with
  | error error =>
    change Except.error (kind.tell error) = _
    rw [SiteKind.tell, hnamed]
    rfl
  | ok value => rfl

theorem result_of_named {nodeKind : NodeKind} {name : String}
    (hnamed : kind.named? = some (nodeKind, name))
    (hread : kind.read source tree = do return some (node (← reading))) :
    (⟨kind, source, tree⟩ : Site).result =
      (some ∘ node) <$> (reading.mapError (.failed nodeKind name)).result := by
  unfold result
  rw [hread, Reading.result_bind, Reading.result_mapError]
  cases reading.result with
  | error error =>
    change Except.error (kind.tell error) = _
    rw [SiteKind.tell, hnamed]
    rfl
  | ok value => rfl

theorem result_of_field {reading : Reading (Option α)} (hnamed : kind.named? = none)
    (hread : kind.read source tree = do return (← reading).map node) :
    (⟨kind, source, tree⟩ : Site).result = Option.map node <$> reading.result := by
  unfold result
  rw [hread, Reading.result_bind]
  cases reading.result with
  | error error =>
    change Except.error (kind.tell error) = _
    rw [SiteKind.tell, hnamed]
    rfl
  | ok value => rfl

end Site

theorem field?_soleField {entries : Entries} {key : String} {tree : Tree}
    (h : Entries.field? entries key = some tree) :
    Entries.field? (soleField key tree) key = some tree := by
  have hnull := (Option.filter_eq_some_iff.1 h).2
  simp only [Entries.field?, Entries.get?, soleField, List.find?_cons, decide_true, Option.map_some]
  rw [Option.filter_some, if_pos hnull]

theorem eq_of_field?_soleField {key : String} {tree found : Tree}
    (h : Entries.field? (soleField key tree) key = some found) : found = tree := by
  obtain ⟨entry, hentry, rfl⟩ := Option.map_eq_some_iff.1 (Option.filter_eq_some_iff.1 h).1
  obtain rfl := List.mem_singleton.1 (List.mem_of_find?_eq_some hentry)
  rfl

theorem asString?_of_keyText {construct name : String} {key : Tree}
    (h : keyText construct key = .ok name) : key.asString? = some name := by
  unfold keyText at h
  split at h
  · cases h
    assumption
  · cases h

theorem mapping_of_entriesOf {name : String} {tree : Tree} {entries : Entries}
    (h : entriesOf name tree = .ok entries) (hne : entries ≠ []) : tree = .mapping entries := by
  unfold entriesOf at h
  split at h
  · cases h
    rfl
  · cases h
    exact absurd rfl hne
  · cases h

namespace ReadsIn

variable {α β : Type} {sites sites' : Set Site} {nodes : α → List Document.Node}
  {nodes' : β → List Document.Node} {source : Source} {entries : Entries}

theorem mono {reading : Reading α} (h : ReadsIn sites nodes reading) (hsites : sites ⊆ sites') :
    ReadsIn sites' nodes reading where
  nodes value hvalue node hnode := by
    obtain ⟨site, hsite, hread⟩ := h.nodes value hvalue node hnode
    exact ⟨site, hsites hsite, hread⟩
  errors error herror := by
    refine (h.errors error herror).imp_right ?_
    rintro ⟨site, hsite, hread⟩
    exact ⟨site, hsites hsite, hread⟩

theorem congr {reading reading' : Reading α} (hresult : reading.result = reading'.result)
    (h : ReadsIn sites nodes reading') : ReadsIn sites nodes reading where
  nodes value hvalue := h.nodes value (hresult ▸ hvalue)
  errors error herror := h.errors error (hresult ▸ herror)

theorem pure {value : α} (h : ∀ node ∈ nodes value, ReadAt sites node) :
    ReadsIn sites nodes (Pure.pure value) where
  nodes _ hvalue := Except.ok.inj hvalue ▸ h
  errors _ := nofun

theorem fail {error : Error} (h : error.isOrdinary) : ReadsIn sites nodes (Reading.fail error) where
  nodes _ := nofun
  errors _ herror := .inl (Except.error.inj herror ▸ h)

/-- One reading after another, whose nodes may include those of the first. -/
theorem bind {first : Reading α} {next : α → Reading β} (hfirst : ReadsIn sites nodes first)
    (hnext : ∀ value, first.result = .ok value → (∀ node ∈ nodes value, ReadAt sites node) →
      ReadsIn sites nodes' (next value)) : ReadsIn sites nodes' (first >>= next) := by
  cases hresult : first.result with
  | error error =>
    have hbind : (first >>= next).result = .error error := by
      rw [Reading.result_bind, hresult]
      rfl
    refine ⟨fun value hvalue => ?_, fun error' herror => ?_⟩
    · cases hbind.symm.trans hvalue
    · cases hbind.symm.trans herror
      exact hfirst.errors _ hresult
  | ok value =>
    have hbind : (first >>= next).result = (next value).result := by
      rw [Reading.result_bind, hresult]
      rfl
    have h := hnext value hresult (hfirst.nodes value hresult)
    exact ⟨fun value' hvalue => h.nodes value' (hbind ▸ hvalue),
      fun error herror => h.errors error (hbind ▸ herror)⟩

/-- A first reading without nodes and without errors of its own. -/
theorem bindOrdinary {first : Reading α} {next : α → Reading β} (hfirst : Ordinary first.result)
    (hnext : ∀ value, first.result = .ok value → ReadsIn sites nodes' (next value)) :
    ReadsIn sites nodes' (first >>= next) := by
  have hnone : ReadsIn sites (fun _ => []) first :=
    ⟨fun _ _ => List.forall_mem_nil _, fun error herror => .inl (hfirst error herror)⟩
  exact hnone.bind fun value hvalue _ => hnext value hvalue

/-- A first step whose errors tell of misfits. -/
theorem bindMisfits {first : Except Error α} {next : α → Reading β} (hfirst : Misfits first)
    (hnext : ∀ value, first = .ok value → ReadsIn sites nodes' (next value)) :
    ReadsIn sites nodes' ((liftM first : Reading α) >>= next) :=
  bindOrdinary hfirst.ordinary hnext

theorem bindText {key : String} {next : Option String → Reading β}
    (hnext : ∀ text, ReadsIn sites nodes' (next text)) :
    ReadsIn sites nodes' (Field.text entries key source >>= next) :=
  bindOrdinary (Field.ordinary_text entries key source) fun text _ => hnext text

theorem map {reading : Reading α} {f : α → β} (h : ReadsIn sites nodes reading)
    (hf : ∀ value, nodes' (f value) = nodes value) : ReadsIn sites nodes' (f <$> reading) := by
  rw [map_eq_pure_bind]
  exact h.bind fun value _ hvalue => pure (hf value ▸ hvalue)

/-- What is read at a site. -/
theorem ofSite {site : Site} {reading : Reading α} {node : α → Document.Node}
    (hmem : site ∈ sites) (h : site.result = (some ∘ node) <$> reading.result) :
    ReadsIn sites (fun value => [node value]) reading where
  nodes value hvalue inside hinside := by
    obtain rfl := List.mem_singleton.1 hinside
    refine ⟨site, hmem, ?_⟩
    rw [h, hvalue]
    rfl
  errors error herror := by
    refine .inr ⟨site, hmem, ?_⟩
    rw [h, herror]
    rfl

theorem ofResult {site : Site} {result : Except Error α} {node : α → Document.Node}
    (hmem : site ∈ sites) (h : site.result = (some ∘ node) <$> result) :
    ReadsIn sites (fun value => [node value]) (Reading.lift result) := ofSite hmem h

theorem readEntries {construct : String} {read : String → Tree → Reading α}
    {node : α → Document.Node}
    (h : ∀ entry ∈ entries, ∀ name, entry.1.asString? = some name →
      ReadsIn sites (fun value => [node value]) (read name entry.2)) :
    ReadsIn sites (List.map node) (RamlDoc.readEntries construct read entries) := by
  induction entries with
  | nil => exact pure (List.forall_mem_nil _)
  | cons entry entries ih =>
    refine bindMisfits (misfits_keyText construct entry.1) fun name hname => ?_
    have hentry := h entry List.mem_cons_self name (asString?_of_keyText hname)
    refine hentry.bind fun item _ hitem => ?_
    have hrest := ih fun other hother => h other (List.mem_cons_of_mem _ hother)
    exact hrest.bind fun items _ hitems => pure (List.forall_mem_cons.2
      ⟨List.forall_mem_singleton.1 hitem, hitems⟩)

/-- What a loop over entries reads, given where it reads those that it picks. -/
theorem ofLoop {reading : Reading (List α)} {outcome? : Tree × Tree → Option (Except Error α)}
    {node : α → Document.Node} (hloop : reading.result = collect outcome? entries)
    (h : ∀ entry ∈ entries, ∀ result, outcome? entry = some result →
      ReadsIn sites (fun value => [node value]) (Reading.lift result)) :
    ReadsIn sites (List.map node) reading := by
  suffices hcollect : ReadsIn sites (List.map node) (Reading.lift (collect outcome? entries)) from
    congr hloop hcollect
  clear hloop
  induction entries with
  | nil => exact pure (List.forall_mem_nil _)
  | cons entry entries ih =>
    have hrest := ih fun other hother => h other (List.mem_cons_of_mem _ hother)
    cases houtcome : outcome? entry with
    | none =>
      rw [collect_cons_of_none houtcome]
      exact hrest
    | some result =>
      rw [collect_cons_of_some houtcome]
      have hitem := h entry List.mem_cons_self result houtcome
      have hitems : ReadsIn sites (List.map node) (do
          let item ← Reading.lift result
          return item :: (← Reading.lift (collect outcome? entries))) :=
        hitem.bind fun item _ hitem => hrest.bind fun items _ hitems =>
          pure (List.forall_mem_cons.2 ⟨List.forall_mem_singleton.1 hitem, hitems⟩)
      refine congr ?_ hitems
      simp only [Reading.result_bind]
      rfl

/-- A block under a field is read at the entries of the block. -/
theorem readBlock {field key construct : String} {read : Source → String → Tree → Reading α}
    {node : α → Document.Node} {kind : String → SiteKind}
    (h : ∀ origin name tree, (⟨kind name, origin, tree⟩ : Site).result =
      (some ∘ node) <$> (read origin name tree).result) :
    ReadsIn (Site.atBlock source entries field kind) (fun block => block.elements.map node)
      (RamlDoc.readBlock source key construct read (Entries.field? entries field)) := by
  cases hfield : Entries.field? entries field with
  | none => exact pure (List.forall_mem_nil _)
  | some tree =>
    refine bindOrdinary (source.ordinary_openBlock tree) fun slot hslot => ?_
    split
    next declared hcontent =>
      refine (readEntries fun entry hentry name hname => ofSite ?_ (h slot.origin name entry.2)).map
        fun items => by rw [Block.elements_ofList]
      exact ⟨tree, slot, declared, hfield, hslot, hcontent,
        Site.mem_atKeys hentry (by simp only [hname, Option.map_some])⟩
    next => exact pure (List.forall_mem_nil _)
    next => exact fail rfl

/-- A field that is read at a site of its own. -/
theorem ofField {key : String} {kind : SiteKind} {reading : Reading (Option α)}
    {node : α → Document.Node}
    (hnone : Entries.field? entries key = none → reading = Pure.pure none)
    (hsome : ∀ tree, Entries.field? entries key = some tree →
      (⟨kind, source, tree⟩ : Site).result = Option.map node <$> reading.result) :
    ReadsIn (Site.atField source entries key kind) (fun value => value.toList.map node)
      reading := by
  cases hfield : Entries.field? entries key with
  | none =>
    rw [hnone hfield]
    exact pure (List.forall_mem_nil _)
  | some tree =>
    have hmem : (⟨kind, source, tree⟩ : Site) ∈ Site.atField source entries key kind :=
      ⟨hfield, rfl, rfl⟩
    refine ⟨fun value hvalue inside hinside => ?_, fun error herror => ?_⟩
    · obtain ⟨inner, hinner, rfl⟩ := List.mem_map.1 hinside
      refine ⟨_, hmem, ?_⟩
      rw [hsome tree hfield, hvalue, Option.mem_toList.1 hinner]
      rfl
    · refine .inr ⟨_, hmem, ?_⟩
      rw [hsome tree hfield, herror]
      rfl

end ReadsIn

/-! ## Declarations -/

section Readers

variable {source : Source} {entries : Entries} {tree content : Tree} {sites : Set Site}

theorem DataType.readsIn_ofTree? (source : Source) (tree : Tree) :
    ReadsIn {⟨.dataType, source, tree⟩} (fun _ => [])
      (liftM (DataType.ofTree? (some "type") tree) : Reading (Option DataType)) where
  nodes _ _ := List.forall_mem_nil _
  errors error herror := by
    refine .inr ⟨_, Set.mem_singleton _, ?_⟩
    rw [Reading.result_monadLift] at herror
    unfold Site.result SiteKind.read
    rw [Reading.result_bind, Reading.result_monadLift, herror]
    rfl

namespace Example

theorem readsIn_readAll :
    ReadsIn (Site.ofExamples source entries) (fun block => block.elements.map .sample)
      (readAll source entries) := by
  have hsite : ∀ identifier tree, (⟨.sample identifier, source, tree⟩ : Site).result =
      (some ∘ .sample) <$> (read source identifier tree).result :=
    fun _ _ => Site.result_of_unnamed rfl rfl
  have hsingle : ReadsIn (Site.ofExamples source entries) (List.map .sample)
      (readSingle source entries) := by
    unfold readSingle
    cases hfield : Entries.field? entries "example" with
    | none => exact .pure (List.forall_mem_nil _)
    | some tree =>
      exact (ReadsIn.ofSite (.inl ⟨hfield, rfl, rfl⟩) (hsite "example" tree)).bind
        fun ex _ hex => .pure hex
  have hnamed : ReadsIn (Site.ofExamples source entries) (List.map .sample)
      (readNamed source entries) := by
    unfold readNamed
    split
    next => exact .pure (List.forall_mem_nil _)
    next named hfield =>
      refine .readEntries fun entry hentry name hname => .ofSite (.inr ⟨named, hfield, ?_⟩)
        (hsite name entry.2)
      exact Site.mem_atKeys hentry (by simp only [hname, Option.map_some])
    next => exact .fail rfl
  refine hsingle.bind fun single _ hsingle => hnamed.bind fun named _ hnamed => .pure ?_
  rw [Block.elements_ofList, List.map_append]
  exact List.forall_mem_append.2 ⟨hsingle, hnamed⟩

theorem readsIn_read (identifier : String) :
    ReadsIn sites (fun _ => []) (read source identifier tree) := by
  unfold read
  split
  next =>
    exact .bindOrdinary (source.ordinary_readText tree) fun _ _ => .pure (List.forall_mem_nil _)
  next =>
    split
    next =>
      split
      next =>
        refine .bindText fun displayName => .bindText fun description => ?_
        exact .bindMisfits (Field.misfits_of _ _ _ _) fun strict _ =>
          .pure (List.forall_mem_nil _)
      next => exact .pure (List.forall_mem_nil _)
    next => exact .pure (List.forall_mem_nil _)

end Example

theorem Facets.readsIn_read {α : Type} {type : Option DataType} {others : Reading α}
    {nodes : α → List Document.Node} (hothers : ReadsIn sites nodes others)
    (hexamples : Site.ofExamples source entries ⊆ sites) :
    ReadsIn sites (fun (facets, others) => nodes others ++ facets.examples.elements.map .sample)
      (read source entries type others) := by
  refine .bindMisfits (Restrictions.misfits_read entries type) fun restrictions _ => ?_
  refine .bindText fun displayName => .bindText fun description => ?_
  refine .bindMisfits (Field.misfits_strings entries _) fun admitted _ => ?_
  refine hothers.bind fun others _ hothers => ?_
  refine (Example.readsIn_readAll.mono hexamples).bind fun examples _ hexamples => .pure ?_
  exact List.forall_mem_append.2 ⟨hothers, hexamples⟩

namespace Property

theorem readsIn_read (name : String) :
    ReadsIn (⟨.property name, source, tree⟩ : Site).inner
      (fun property => Document.Node.children (.property property)) (read source name tree) := by
  unfold read
  refine .bindOrdinary (source.ordinary_openSlot tree none) fun slot hslot => ?_
  split
  next => exact .pure (List.forall_mem_nil _)
  next => exact .pure (List.forall_mem_nil _)
  next entries hcontent =>
    refine ReadsIn.mono ?_ (Site.subset_inner_of_openSlot rfl hslot hcontent)
    refine ((DataType.readsIn_ofTree? slot.origin _).mono Set.subset_union_left).bind
      fun type _ _ => ?_
    refine .bindMisfits (Field.misfits_of entries _ _ _) fun required _ => ?_
    have hothers : ReadsIn (Site.ofEntries slot.origin entries (.property name))
        (fun _ => []) (pure () : Reading Unit) := .pure (List.forall_mem_nil _)
    refine (Facets.readsIn_read hothers Set.subset_union_right).bind
      fun (facets, _) _ hfacets => .pure hfacets
  next => exact .fail rfl

theorem readsIn_readAll (key : String) :
    ReadsIn (Site.atBlock source entries key .property) (fun block => block.elements.map .property)
      (readAll source (Entries.field? entries key)) :=
  .readBlock fun _ _ _ => Site.result_of_unnamed rfl rfl

end Property

namespace TypeDeclaration

theorem readsIn_readOthers {items : Option DataType}
    (hproperties : Site.atBlock source entries "properties" .property ⊆ sites)
    (hfacets : Site.atBlock source entries "facets" .property ⊆ sites) :
    ReadsIn sites (fun (object, _, ownFacets) =>
        object.properties.elements.map .property ++ ownFacets.elements.map .property)
      (readOthers source entries items) := by
  have hobject : ReadsIn sites (fun object => object.properties.elements.map .property)
      (readObject source entries) := by
    refine ((Property.readsIn_readAll _).mono hproperties).bind fun properties _ hproperties => ?_
    refine .bindMisfits (Field.misfits_of entries _ _ _) fun _ _ => ?_
    refine .bindMisfits (Field.misfits_of entries _ _ _) fun _ _ => ?_
    refine .bindMisfits (Field.misfits_of entries _ _ _) fun _ _ => ?_
    refine .bindMisfits (Field.misfits_of entries _ _ _) fun _ _ => ?_
    exact .bindMisfits (Field.misfits_of entries _ _ _) fun _ _ => .pure hproperties
  refine hobject.bind fun object _ hobject => ?_
  refine .bindMisfits (misfits_readArray entries items) fun array _ => ?_
  refine ((Property.readsIn_readAll _).mono hfacets).bind fun ownFacets _ hownFacets => .pure ?_
  exact List.forall_mem_append.2 ⟨hobject, hownFacets⟩

theorem readsIn_read (name : String) :
    ReadsIn (⟨.type name, source, tree⟩ : Site).inner
      (fun type => Document.Node.children (.type type)) (read source name tree) := by
  unfold read
  refine .bindOrdinary (source.ordinary_openSlot tree none) fun slot hslot => ?_
  split
  next => exact .pure (List.forall_mem_nil _)
  next => exact .pure (List.forall_mem_nil _)
  next entries hcontent =>
    refine ReadsIn.mono ?_ (Site.subset_inner_of_openSlot rfl hslot hcontent)
    refine ((DataType.readsIn_ofTree? slot.origin _).mono ?_).bind fun items _ _ => ?_
    · exact fun _ h => .inl (.inl (.inl (.inr h)))
    refine ((DataType.readsIn_ofTree? slot.origin _).mono ?_).bind fun declared _ _ => ?_
    · exact fun _ h => .inl (.inl (.inl (.inl h)))
    refine (Facets.readsIn_read (readsIn_readOthers ?_ ?_) Set.subset_union_right).bind
      fun (facets, _) _ hchildren => .pure hchildren
    · exact fun _ h => .inl (.inl (.inr h))
    · exact fun _ h => .inl (.inr h)
  next => exact .fail rfl

end TypeDeclaration

namespace AnnotationType

theorem readsIn_read (name : String) :
    ReadsIn (⟨.annotationType name, source, tree⟩ : Site).inner
      (fun type => Document.Node.children (.annotationType type)) (read source name tree) := by
  unfold read
  split
  next => exact .pure (List.forall_mem_nil _)
  next =>
    exact .bindMisfits (AnnotationKind.misfits_ofExpression _) fun _ _ =>
      .pure (List.forall_mem_nil _)
  next =>
    exact .bindMisfits (AnnotationKind.misfits_ofItems _) fun _ _ => .pure (List.forall_mem_nil _)
  next entries =>
    refine ReadsIn.mono ?_ (Site.subset_inner rfl)
    refine (Property.readsIn_readAll _).bind fun properties _ hproperties => ?_
    refine .bindMisfits (AnnotationKind.misfits_ofField _ _) fun _ _ => ?_
    refine .bindText fun displayName => .bindText fun description => ?_
    exact .bindMisfits (Field.misfits_strings entries _) fun _ _ => .pure hproperties
  next => exact .fail rfl

end AnnotationType

end Readers

end RamlDoc
