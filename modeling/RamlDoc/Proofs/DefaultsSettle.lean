import RamlDoc.Proofs.DocumentNodes

/-!
# The first defaulting wins

Defaults are applied once: a second time changes nothing, whatever the nodes inherit then, unless a
body has variants to gain or a property has a name that ends in two question marks. The first
defaulting drops one of the marks, and the second the other (`withDefaults_withDefaults_eq_iff`).
-/

namespace RamlDoc

namespace Property

/-- A name keeps itself exactly if it has no mark. -/
theorem fst_nameAndMark_eq_self_iff {name : String} :
    (nameAndMark name).1 = name ↔ ¬['?'] <:+ name.toList := by
  by_cases h : ['?'] <:+ name.toList
  · obtain ⟨front, hfront⟩ := h
    rw [nameAndMark_of_suffix hfront.symm]
    refine iff_of_false (fun heq => ?_) fun h => h ⟨front, hfront⟩
    have hlength := congrArg List.length hfront
    rw [← heq, String.toList_ofList, List.length_append, List.length_singleton] at hlength
    omega
  · rw [nameAndMark_of_not_suffix h]
    exact iff_of_true rfl h

/-- One mark is dropped of a name that has two. -/
theorem mark_suffix_fst_nameAndMark_iff {name : String} :
    ['?'] <:+ (nameAndMark name).1.toList ↔ ['?', '?'] <:+ name.toList := by
  by_cases h : ['?'] <:+ name.toList
  · obtain ⟨front, hfront⟩ := h
    rw [nameAndMark_of_suffix hfront.symm, String.toList_ofList, ← hfront, ← List.reverse_prefix,
      ← List.reverse_prefix]
    simp
  · rw [nameAndMark_of_not_suffix h]
    exact iff_of_false h fun hmarks => h ((List.suffix_cons '?' ['?']).trans hmarks)

/-- A second defaulting keeps a property unless its name ends in two question marks. -/
theorem withDefaults_twice_eq_iff (property : Property) :
    property.withDefaults.withDefaults = property.withDefaults ↔
      ¬['?', '?'] <:+ property.name.toList := by
  rw [← mark_suffix_fst_nameAndMark_iff, ← fst_nameAndMark_eq_self_iff]
  obtain ⟨name, required, facets⟩ := property
  simp [withDefaults, Facets.withDefaults_withDefaults]

end Property

/-! ## Lists and options that stay as they are -/

theorem forall_mem_of_map_append_eq {α : Type} {change : α → α} {items added : List α}
    (h : (items ++ added).map change = items) : ∀ item ∈ items, change item = item := by
  have hlength := congrArg List.length h
  rw [List.length_map, List.length_append] at hlength
  obtain rfl := List.eq_nil_of_length_eq_zero (show added.length = 0 by omega)
  rw [List.append_nil] at h
  exact List.map_inj_left.1 (h.trans (List.map_id items).symm)

theorem option_map_map_eq {α : Type} {change change' : α → α} {option : Option α}
    (h : ∀ item ∈ option.toList, change' (change item) = change item) :
    (option.map change).map change' = option.map change := by
  cases option with
  | none => rfl
  | some item => simpa using h

namespace Document.Node

variable {first second : Inherited} {node child : Node}

/-- A second defaulting leaves the node as it is after the first. -/
def Settles (first second : Inherited) (node : Node) : Prop :=
  (node.withDefaults first).withDefaults second = node.withDefaults first

/-- The node does not lose a mark at a second defaulting. -/
def LosesOneMark : Node → Prop
  | property p => ¬['?', '?'] <:+ p.name.toList
  | _ => True

/-! ## Down the tree -/

/-- The nodes in a node that settles do. -/
theorem Settles.of_mem_children (h : node.Settles first second) (hchild : child ∈ node.children) :
    child.Settles first second := by
  have hchildren := congrArg children h
  rw [children_withDefaults] at hchildren
  refine forall_mem_of_map_append_eq hchildren _ ?_
  rw [children_withDefaults]
  exact List.mem_map_of_mem (List.mem_append_left _ hchild)

/-! ## Up the tree -/

theorem payload_settles {payload : Payload}
    (h : ∀ child ∈ ofPayload payload, child.Settles first second) :
    payload.withDefaults.withDefaults = payload.withDefaults := by
  rw [ofPayload, List.forall_mem_append, List.forall_mem_map] at h
  have hproperties := Block.mapElements_mapElements_eq fun p hp => property.inj (h.1 p hp)
  simp [Payload.withDefaults, hproperties]

theorem exchange_settles {exchange : Exchange}
    (h : ∀ child ∈ ofExchange exchange, child.Settles first second) :
    (exchange.withDefaults first).withDefaults second = exchange.withDefaults first := by
  simp only [ofExchange, List.forall_mem_append, List.forall_mem_map] at h
  obtain ⟨⟨⟨hheaders, hparameters⟩, hquery⟩, hresponses⟩ := h
  have hheaders := Block.mapElements_mapElements_eq fun p hp => parameter.inj (hheaders p hp)
  have hparameters := Block.mapElements_mapElements_eq fun p hp => property.inj (hparameters p hp)
  have hquery := option_map_map_eq fun p hp => queryString.inj (hquery p hp)
  have hresponses := Block.mapElements_mapElements_eq fun r hr => response.inj (hresponses r hr)
  rw [Exchange.withDefaults, Exchange.withDefaults, hheaders, hparameters, hquery, hresponses]

theorem declarations_settle {declarations : Declarations}
    (h : ∀ child ∈ ofDeclarations declarations, child.Settles first second) :
    (declarations.withDefaults first).withDefaults second = declarations.withDefaults first := by
  simp only [ofDeclarations, List.forall_mem_append, List.forall_mem_map] at h
  obtain ⟨⟨⟨⟨htypes, htraits⟩, hresourceTypes⟩, hannotationTypes⟩, hschemes⟩ := h
  have htypes := Block.mapElements_mapElements_eq fun t ht => type.inj (htypes t ht)
  have htraits := Block.mapElements_mapElements_eq fun t ht => trait.inj (htraits t ht)
  have hresourceTypes :=
    Block.mapElements_mapElements_eq fun t ht => resourceType.inj (hresourceTypes t ht)
  have hannotationTypes :=
    Block.mapElements_mapElements_eq fun t ht => annotationType.inj (hannotationTypes t ht)
  have hschemes := Block.mapElements_mapElements_eq fun s hs => securityScheme.inj (hschemes s hs)
  rw [Declarations.withDefaults, Declarations.withDefaults, htypes, htraits, hresourceTypes,
    hannotationTypes, hschemes]

theorem body_settles {b : Body} (hgain : first.mediaTypes ≠ [] ∨ second.mediaTypes = [])
    (h : ∀ child ∈ (body b).children, child.Settles first second) :
    (b.withDefaults first).withDefaults second = b.withDefaults first := by
  obtain ⟨payload, mediaTypes⟩ := b
  rw [children, List.forall_mem_append, List.forall_mem_map] at h
  obtain ⟨hpayload, hmediaTypes⟩ := h
  have hpayload := payload_settles hpayload
  cases mediaTypes with
  | some variants =>
    have hvariants : ∀ variant ∈ variants,
        variant.withDefaults.withDefaults = variant.withDefaults :=
      fun variant hvariant => mediaType.inj (hmediaTypes variant hvariant)
    simpa [Body.withDefaults, hpayload] using hvariants
  | none =>
    cases hfirst : first.mediaTypes with
    | nil =>
      have hsecond : second.mediaTypes = [] := hgain.resolve_left (· hfirst)
      simp [Body.withDefaults, Block.ofList, hpayload, hfirst, hsecond]
    | cons identifier identifiers =>
      simp [Body.withDefaults, Block.ofList, MediaTypeBody.withDefaults, hpayload, hfirst]

/-- A node settles if the nodes in it do and it loses one mark at most. -/
theorem settles_of_children (hgain : first.mediaTypes ≠ [] ∨ second.mediaTypes = [])
    (hself : node.LosesOneMark) (h : ∀ child ∈ node.children, child.Settles first second) :
    node.Settles first second := by
  cases node with
  | document d =>
    simp only [children, List.forall_mem_append, List.forall_mem_map] at h
    obtain ⟨⟨⟨hdeclarations, huses⟩, hresources⟩, -⟩ := h
    have hdeclarations := declarations_settle hdeclarations
    have huses := Block.mapElements_mapElements_eq fun l hl => library.inj (huses l hl)
    have hresources := Block.mapElements_mapElements_eq fun r hr => resource.inj (hresources r hr)
    refine congrArg document ?_
    simp [Document.withDefaults, effectiveProtocols, Parameter.blockForTemplate_blockForTemplate,
      hdeclarations, huses, hresources]
  | library l =>
    obtain ⟨identifier, usage, declarations, uses⟩ := l
    simp only [children, List.forall_mem_append, List.forall_mem_map] at h
    have hdeclarations := declarations_settle h.1
    have huses := Block.mapElements_mapElements_eq fun l hl => library.inj (h.2 l hl)
    refine congrArg library ?_
    simp only [Library.withDefaults, Library.blockWithDefaults_eq, hdeclarations, huses]
  | type t =>
    simp only [children, List.forall_mem_append, List.forall_mem_map] at h
    obtain ⟨⟨hproperties, hfacets⟩, -⟩ := h
    have hproperties := Block.mapElements_mapElements_eq fun p hp => property.inj (hproperties p hp)
    have hfacets := Block.mapElements_mapElements_eq fun p hp => property.inj (hfacets p hp)
    refine congrArg type ?_
    simp [TypeDeclaration.withDefaults, TypeDeclaration.discriminatorValue?,
      Facets.withDefaults_withDefaults, hproperties, hfacets, Option.or_assoc]
  | annotationType t =>
    simp only [children, List.forall_mem_map] at h
    have hproperties := Block.mapElements_mapElements_eq fun p hp => property.inj (h p hp)
    refine congrArg annotationType ?_
    simp [AnnotationType.withDefaults, hproperties]
  | trait t =>
    simp only [children, List.forall_mem_append, List.forall_mem_map] at h
    have hexchange := exchange_settles h.1
    have hbody := option_map_map_eq fun b hb => body.inj (h.2 b hb)
    refine congrArg trait ?_
    simp only [TraitDefinition.withDefaults, hexchange, hbody]
  | resourceType t =>
    simp only [children, List.forall_mem_append, List.forall_mem_map] at h
    have hmethods := Block.mapElements_mapElements_eq fun m hm => method.inj (h.1 m hm)
    have hparameters := Block.mapElements_mapElements_eq fun p hp => parameter.inj (h.2 p hp)
    refine congrArg resourceType ?_
    simp only [ResourceType.withDefaults, hmethods, hparameters]
  | securityScheme s =>
    obtain ⟨identifier, type, displayName, description, describedBy, settings, annotations⟩ := s
    cases describedBy with
    | none => rfl
    | some description =>
      have hexchange : (description.exchange.withDefaults first).withDefaults second =
          description.exchange.withDefaults first :=
        exchange_settles fun child hchild =>
          h child (List.mem_flatMap.2 ⟨description, List.mem_singleton_self _, hchild⟩)
      refine congrArg securityScheme ?_
      simp only [SecurityScheme.withDefaults, Option.map_some, hexchange]
  | resource r =>
    obtain ⟨path, displayName, description, annotations, methods, resources, traits, resourceType,
      securedBy, uriParameters⟩ := r
    simp only [children, List.forall_mem_append, List.forall_mem_map] at h
    obtain ⟨⟨hmethods, hresources⟩, -⟩ := h
    have hmethods := Block.mapElements_mapElements_eq fun m hm => method.inj (hmethods m hm)
    have hresources := Block.mapElements_mapElements_eq fun r hr => resource.inj (hresources r hr)
    refine congrArg resource ?_
    simp only [Resource.withDefaults, Resource.blockWithDefaults_eq, hmethods, hresources,
      Parameter.blockForTemplate_blockForTemplate]
  | method m =>
    simp only [children, List.forall_mem_append, List.forall_mem_map] at h
    have hexchange := exchange_settles h.1
    have hbody := option_map_map_eq fun b hb => body.inj (h.2 b hb)
    refine congrArg method ?_
    simp [Method.withDefaults, hexchange, hbody]
  | response r =>
    simp only [children, List.forall_mem_append, List.forall_mem_map] at h
    have hheaders := Block.mapElements_mapElements_eq fun p hp => parameter.inj (h.1 p hp)
    have hbody := option_map_map_eq fun b hb => body.inj (h.2 b hb)
    refine congrArg response ?_
    simp only [Response.withDefaults, hheaders, hbody]
  | body b => exact congrArg body (body_settles hgain h)
  | mediaType b =>
    refine congrArg mediaType ?_
    simp only [MediaTypeBody.withDefaults, payload_settles h]
  | queryString p => exact congrArg queryString (payload_settles h)
  | property p => exact congrArg property ((Property.withDefaults_twice_eq_iff p).2 hself)
  | parameter p => exact congrArg parameter p.withDefaults_withDefaults
  | sample ex => rfl

/-- A node settles exactly if it reaches no property that loses two marks. -/
theorem settles_iff (hgain : first.mediaTypes ≠ [] ∨ second.mediaTypes = []) (node : Node) :
    node.Settles first second ↔ ∀ found, node.Reaches found → found.LosesOneMark := by
  constructor
  · intro h found hfound
    -- Down the tree: where a node settles, the nodes in it do.
    have hsettles : found.Settles first second := by
      induction hfound with
      | refl => exact h
      | tail _ hchild ih => exact ih.of_mem_children hchild
    cases found with
    | property p => exact (Property.withDefaults_twice_eq_iff p).1 (property.inj hsettles)
    | _ => trivial
  · -- Up the tree, by induction on the nodes in a node.
    induction node using induction_on_children with
    | step node ih =>
      intro h
      refine settles_of_children hgain (h node .refl) fun child hchild => ?_
      exact ih child hchild fun found hfound => h found (.head hchild hfound)

end Document.Node

namespace Document

/-- No property anywhere in the document has a name that ends in two question marks. -/
def MarksOnce (document : Document) : Prop :=
  ∀ property, Node.Reaches (.document document) (.property property) →
    ¬['?', '?'] <:+ property.name.toList

/-- **The first defaulting wins**: a second one keeps a document exactly if no name of a property is
marked twice, provided that the second does not give variants to bodies that the first gave none.
What a document itself hands down never does. -/
theorem withDefaults_withDefaults_eq_iff (document : Document) :
    (∀ first second : Inherited, first.mediaTypes ≠ [] ∨ second.mediaTypes = [] →
      ((document.withDefaults first).withDefaults second = document.withDefaults first ↔
        document.MarksOnce)) ∧
      (document.defaulted.defaulted = document.defaulted ↔ document.MarksOnce) := by
  have hsettles : ∀ first second : Inherited, first.mediaTypes ≠ [] ∨ second.mediaTypes = [] →
      ((document.withDefaults first).withDefaults second = document.withDefaults first ↔
        document.MarksOnce) := by
    intro first second hgain
    have hnode := Node.settles_iff hgain (.document document)
    rw [Node.Settles, Node.withDefaults, Node.withDefaults, Node.document.injEq] at hnode
    rw [hnode]
    refine ⟨fun h property hproperty => h _ hproperty, fun h found hfound => ?_⟩
    cases found with
    | property p => exact h p hfound
    | _ => trivial
  refine ⟨hsettles, hsettles document.inherited document.inherited ?_⟩
  by_cases h : document.inherited.mediaTypes = []
  · exact .inr h
  · exact .inl h

/-- A document with a type that has a property marked twice. -/
def markedTwice : Document where
  title := "API"
  declarations :=
    { types := some [{ name := "T", object := { properties := some [{ name := "a??" }] } }] }

/-- The second defaulting drops the second mark. -/
theorem withDefaults_withDefaults_markedTwice_ne :
    (Inherited.usual.mediaTypes ≠ [] ∨ Inherited.usual.mediaTypes = []) ∧
      (markedTwice.withDefaults Inherited.usual).withDefaults Inherited.usual ≠
        markedTwice.withDefaults Inherited.usual ∧
      markedTwice.defaulted.defaulted ≠ markedTwice.defaulted := by
  obtain ⟨hgiven, hown⟩ := withDefaults_withDefaults_eq_iff markedTwice
  have hmarks : ¬markedTwice.MarksOnce := by
    intro h
    have htype : Node.type { name := "T", object := { properties := some [{ name := "a??" }] } } ∈
        (Node.document markedTwice).children := List.mem_cons_self
    exact h { name := "a??" } (.tail (.single htype) List.mem_cons_self) ⟨['a'], rfl⟩
  exact ⟨.inr rfl, mt (hgiven _ _ (.inr rfl)).1 hmarks, mt hown.1 hmarks⟩

end Document

end RamlDoc
