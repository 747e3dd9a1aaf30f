import RamlDoc.Proofs.EntryPoints
import RamlDoc.Proofs.OperationsReordered

/-!
# Reordered documents

The order of mapping keys does not matter: where a tree without include directives, whose keys are
distinct, is read as a document without a file, so is every tree that reorders it, and the one
document reorders the other (`Document.ofTree_reorders`). The readers of resources and of libraries
go through a tree by recursion, and so do the proofs about them.
-/

namespace RamlDoc

open Yaml

variable {source : Source} {first second : Entries} {tree tree' : Tree}

/-! ## Templates and security schemes -/

theorem carries_readFragments {α : Type} {R : α → α → Prop} {fragment : FragmentKind}
    {kind : NodeKind} {ofEntries : Source → String → Entries → Reading α}
    (hread : ∀ name first second, Entries.Rearranged first second →
      Carries R (ofEntries source name first).result (ofEntries source name second).result)
    (key construct : String) {field field' : Option Tree}
    (h : Option.Rel Tree.Rearranged field field') :
    Carries (Block.Reordered R)
      (readFragments source key construct fragment kind ofEntries field).result
      (readFragments source key construct fragment kind ofEntries field').result := by
  refine carries_readBlock (fun name tree tree' htree => ?_) h
  refine Carries.mapError (.openFragment htree ?_) _ _
  exact .bind (carries_entriesOf name htree) (hread name)

structure TraitDefinition.Reorders (first second : TraitDefinition) : Prop where
  frame :
    { second with
      annotations := first.annotations
      exchange := first.exchange
      body := first.body
      securedBy := first.securedBy } = first
  annotations : Block.Reordered AnnotationUse.Reorders first.annotations second.annotations
  exchange : first.exchange.Reorders second.exchange
  body : Option.Rel Body.Reorders first.body second.body
  securedBy : Block.InOrder Usage.Reorders first.securedBy second.securedBy

theorem TraitDefinition.carries_ofEntries (name : String) (h : Entries.Rearranged first second) :
    Carries Reorders (ofEntries source name first).result
      (ofEntries source name second).result := by
  unfold ofEntries
  simp only [h.text, Protocol.readAll_eq_of_rearranged h]
  refine .bindSame fun _ => .bindSame fun _ => .bindSame fun _ => ?_
  refine .bind (Exchange.carries_read h) fun _ _ hexchange => ?_
  refine .bind (Body.carries_read h) fun _ _ hbody => .bindSame fun _ => ?_
  refine .bind (carries_readSecuredBy h) fun _ _ hsecuredBy => ?_
  exact .ok ⟨rfl, reordered_annotationsOf h, hexchange, hbody, hsecuredBy⟩

theorem TraitDefinition.carries_readAll (h : Entries.Rearranged first second) (key : String) :
    Carries (Block.Reordered Reorders) (readAll source (Entries.field? first key)).result
      (readAll source (Entries.field? second key)).result :=
  carries_readFragments (fun name _ _ => carries_ofEntries name) _ _ (h.field key)

structure ResourceType.Reorders (first second : ResourceType) : Prop where
  frame :
    { second with
      annotations := first.annotations
      methods := first.methods
      uriParameters := first.uriParameters
      traits := first.traits
      securedBy := first.securedBy } = first
  annotations : Block.Reordered AnnotationUse.Reorders first.annotations second.annotations
  methods : Block.Reordered Method.Reorders first.methods second.methods
  uriParameters : Block.Reordered Parameter.Reorders first.uriParameters second.uriParameters
  traits : Block.InOrder Usage.Reorders first.traits second.traits
  securedBy : Block.InOrder Usage.Reorders first.securedBy second.securedBy

theorem ResourceType.carries_ofEntries (identifier : String)
    (h : Entries.Rearranged first second) :
    Carries Reorders (ofEntries source identifier first).result
      (ofEntries source identifier second).result := by
  unfold ofEntries
  simp only [h.text]
  refine .bindSame fun _ => .bindSame fun _ => .bindSame fun _ => ?_
  refine .bind (Method.carries_readAll true h) fun _ _ hmethods => ?_
  refine .bind (Parameter.carries_readOfUri h _) fun _ _ huriParameters => ?_
  refine .bind (carries_readTraitUsages h) fun _ _ htraits => ?_
  refine .bind (carries_readSecuredBy h) fun _ _ hsecuredBy => ?_
  exact .ok ⟨rfl, reordered_annotationsOf h, hmethods, huriParameters, htraits, hsecuredBy⟩

theorem ResourceType.carries_readAll (h : Entries.Rearranged first second) (key : String) :
    Carries (Block.Reordered Reorders) (readAll source (Entries.field? first key)).result
      (readAll source (Entries.field? second key)).result :=
  carries_readFragments (fun name _ _ => carries_ofEntries name) _ _ (h.field key)

/-- Settings without a fixed form may be reordered. -/
inductive SecuritySettings.Reorders : SecuritySettings → SecuritySettings → Prop
  | oAuth1 (settings : OAuth1Settings) : Reorders (.oAuth1 settings) (.oAuth1 settings)
  | oAuth2 (settings : OAuth2Settings) : Reorders (.oAuth2 settings) (.oAuth2 settings)
  | other {settings settings' : Entries} (h : settings.Reorders settings') :
      Reorders (.other settings) (.other settings')

namespace SecuritySettings

theorem carries_ofEntries (type : SecurityType) (h : Entries.Rearranged first second) :
    Carries Reorders (ofEntries type first) (ofEntries type second) := by
  have hsame : ∀ {α : Type} (result : Except Error α), Carries Eq result result :=
    fun _ value hvalue => ⟨value, hvalue, rfl⟩
  unfold ofEntries readOAuth1 readOAuth2
  simp only [h.string, h.strings]
  cases type with
  | oAuth1 =>
    refine (hsame _).map ?_
    rintro settings _ rfl
    exact .oAuth1 settings
  | oAuth2 =>
    refine (hsame _).map ?_
    rintro settings _ rfl
    exact .oAuth2 settings
  | _ => exact .ok (.other h.reorders)

theorem carries_read (type : SecurityType) (h : Entries.Rearranged first second) :
    Carries (Option.Rel Reorders) (read type first) (read type second) := by
  have hmapping : Carries (Option.Rel Entries.Rearranged) (Field.mapping first "settings")
      (Field.mapping second "settings") := by
    have hfield := h.field "settings"
    unfold Field.mapping Field.of
    generalize Entries.field? first _ = value, Entries.field? second _ = value' at hfield ⊢
    cases hfield with
    | none => exact .ok .none
    | some hvalue =>
      cases hvalue.reorders with
      | mapping => exact .ok (.some hvalue)
      | _ => exact .error
  refine hmapping.andThen fun settings settings' hsettings => ?_
  cases hsettings with
  | none => exact .ok .none
  | some hsettings => exact (carries_ofEntries type hsettings).andThen fun _ _ h => .ok (.some h)

end SecuritySettings

structure SecurityDescription.Reorders (first second : SecurityDescription) : Prop where
  exchange : first.exchange.Reorders second.exchange
  annotations : Block.Reordered AnnotationUse.Reorders first.annotations second.annotations

theorem SecurityDescription.carries_read (h : Entries.Rearranged first second) :
    Carries (Option.Rel Reorders) (read source first).result (read source second).result := by
  have hfield := h.field "describedBy"
  unfold read
  generalize Entries.field? first _ = value, Entries.field? second _ = value' at hfield ⊢
  cases hfield with
  | none => exact .ok .none
  | some hvalue =>
    refine .bind (carries_entriesOf _ hvalue) fun _ _ hentries => ?_
    refine .bind (Exchange.carries_read hentries) fun _ _ hexchange => ?_
    exact .ok (.some ⟨hexchange, reordered_annotationsOf hentries⟩)

structure SecurityScheme.Reorders (first second : SecurityScheme) : Prop where
  frame :
    { second with
      describedBy := first.describedBy
      settings := first.settings
      annotations := first.annotations } = first
  describedBy : Option.Rel SecurityDescription.Reorders first.describedBy second.describedBy
  settings : Option.Rel SecuritySettings.Reorders first.settings second.settings
  annotations : Block.Reordered AnnotationUse.Reorders first.annotations second.annotations

theorem SecurityScheme.carries_ofEntries (identifier : String)
    (h : Entries.Rearranged first second) :
    Carries Reorders (ofEntries source identifier first).result
      (ofEntries source identifier second).result := by
  unfold ofEntries SecurityType.read
  simp only [h.text, h.string]
  refine .bindSame fun type => ?_
  refine .bind (SecuritySettings.carries_read type h) fun _ _ hsettings => ?_
  refine .bindSame fun _ => .bindSame fun _ => ?_
  refine .bind (SecurityDescription.carries_read h) fun _ _ hdescribedBy => ?_
  exact .ok ⟨rfl, hdescribedBy, hsettings, reordered_annotationsOf h⟩

theorem SecurityScheme.carries_readAll (h : Entries.Rearranged first second) (key : String) :
    Carries (Block.Reordered Reorders) (readAll source (Entries.field? first key)).result
      (readAll source (Entries.field? second key)).result :=
  carries_readFragments (fun name _ _ => carries_ofEntries name) _ _ (h.field key)

/-! ## Libraries -/

structure Declarations.Reorders (first second : Declarations) : Prop where
  types : Block.Reordered TypeDeclaration.Reorders first.types second.types
  traits : Block.Reordered TraitDefinition.Reorders first.traits second.traits
  resourceTypes : Block.Reordered ResourceType.Reorders first.resourceTypes second.resourceTypes
  annotationTypes :
    Block.Reordered AnnotationType.Reorders first.annotationTypes second.annotationTypes
  securitySchemes :
    Block.Reordered SecurityScheme.Reorders first.securitySchemes second.securitySchemes

namespace Declarations

theorem carries_readOfDocument (h : Entries.Rearranged first second) :
    Carries Reorders (readOfDocument source first).result
      (readOfDocument source second).result := by
  refine .bind (TypeDeclaration.carries_readAll h _) fun _ _ htypes => ?_
  refine .bind (TraitDefinition.carries_readAll h _) fun _ _ htraits => ?_
  refine .bind (ResourceType.carries_readAll h _) fun _ _ hresourceTypes => ?_
  refine .bind (AnnotationType.carries_readAll h _) fun _ _ hannotationTypes => ?_
  refine .bind (SecurityScheme.carries_readAll h _) fun _ _ hsecuritySchemes => ?_
  exact .ok ⟨htypes, htraits, hresourceTypes, hannotationTypes, hsecuritySchemes⟩

theorem carries_readOfLibrary (h : Entries.Rearranged first second) :
    Carries Reorders (readOfLibrary source first).result
      (readOfLibrary source second).result := by
  refine .bind (TypeDeclaration.carries_readAll h _) fun _ _ htypes => ?_
  refine .bind (ResourceType.carries_readAll h _) fun _ _ hresourceTypes => ?_
  refine .bind (TraitDefinition.carries_readAll h _) fun _ _ htraits => ?_
  refine .bind (SecurityScheme.carries_readAll h _) fun _ _ hsecuritySchemes => ?_
  refine .bind (AnnotationType.carries_readAll h _) fun _ _ hannotationTypes => ?_
  exact .ok ⟨htypes, htraits, hresourceTypes, hannotationTypes, hsecuritySchemes⟩

end Declarations

/-- A library reorders another if its declarations and the libraries it uses do. -/
inductive Library.Reorders : Library → Library → Prop
  | intro {first second : Library}
      (frame :
        { second with
          declarations := first.declarations
          uses := first.uses } = first)
      (declarations : first.declarations.Reorders second.declarations)
      (uses : Option.Rel (Reordered Reorders) first.uses second.uses) : Reorders first second

namespace Library

theorem carries_ofEntries (identifier : String) (h : Entries.Rearranged first second)
    {readUsed readUsed' : Reading (Block Library)}
    (hused : Carries (Block.Reordered Reorders) readUsed.result readUsed'.result) :
    Carries Reorders (ofEntries source identifier first readUsed).result
      (ofEntries source identifier second readUsed').result := by
  unfold ofEntries
  rw [h.text]
  refine .bindSame fun _ => .bind (Declarations.carries_readOfLibrary h) fun _ _ hdeclarations => ?_
  exact .bind hused fun _ _ hused => .ok (.intro rfl hdeclarations hused)

theorem carries_readUses (h : Entries.Rearranged first second)
    (hcontent : ∀ used ∈ (Tree.mapping first).parts, ∀ used', used.Rearranged used' →
      Carries (Block.Reordered Reorders) (readContent source used).result
        (readContent source used').result) :
    Carries (Block.Reordered Reorders) (readUses source first).result
      (readUses source second).result := by
  have hfield := h.field "uses"
  rw [readUses, readUses]
  split
  next hnone =>
    rw [hnone] at hfield
    split
    next => exact .ok .none
    next hsome => rw [hsome] at hfield; cases hfield
  next used hused =>
    rw [hused] at hfield
    split
    next hnone => rw [hnone] at hfield; cases hfield
    next used' hused' =>
      rw [hused'] at hfield
      cases hfield with
      | some hrel =>
        have hpart : used ∈ (Tree.mapping first).parts :=
          List.mem_map_of_mem (Entries.mem_of_field? hused)
        exact .openBlock hrel (hcontent used hpart used' hrel)

theorem carries_readEntries (h : Entries.Rearranged first second)
    (hread : ∀ library ∈ (Tree.mapping first).parts, ∀ library', library.Rearranged library' →
      ∀ identifier, Carries Reorders (read source identifier library).result
        (read source identifier library').result) :
    Carries (Reordered Reorders) (readEntries source first).result
      (readEntries source second).result := by
  rw [result_readEntries, result_readEntries]
  refine .collect (h.entries.imp fun entry hentry _ hrel => And.intro hentry hrel) ?_
  rintro entry entry' ⟨hentry, hkey, hvalue⟩
  refine .some ?_
  unfold entryOutcome
  rw [keyText_eq_of_reorders hkey]
  cases keyText "Library" entry.1 with
  | error => exact .error
  | ok name => exact (hread _ (List.mem_map_of_mem hentry) _ hvalue name).mapError _ _

theorem pathOf?_eq_of_reorders (h : tree.Reorders tree') : pathOf? tree' = pathOf? tree := by
  unfold pathOf?
  rw [h.includeTarget?_eq, h.asString?_eq]

/-- In a source without a file no library is used by its path, so libraries are read where they are
written. -/
theorem carries_read_and_readContent (hfile : source.context.file = none)
    (h : tree.Rearranged tree') :
    (∀ identifier, Carries Reorders (read source identifier tree).result
      (read source identifier tree').result) ∧
      Carries (Block.Reordered Reorders) (readContent source tree).result
        (readContent source tree').result := by
  induction tree using Tree.induction_on_parts generalizing tree' with
  | step tree ih =>
    constructor
    · intro identifier
      rw [read, read, pathOf?_eq_of_reorders h.reorders]
      split
      next target _ =>
        rw [Reading.result_bind, Source.result_resolveTarget_alone hfile]
        exact .error
      next =>
        cases h.reorders with
        | mapping =>
          rw [readInPlace, readInPlace]
          refine carries_ofEntries identifier h (carries_readUses h fun used hused _ hrel => ?_)
          exact (ih used hused hrel).2
        | null =>
          rw [readInPlace]
          exact carries_ofEntries identifier .nil (.ok .none)
        | _ =>
          unfold readInPlace
          exact .error
    · cases h.reorders with
      | mapping =>
        rw [readContent, readContent]
        refine .mapReading (carries_readEntries h fun library hlibrary _ hrel => ?_)
          fun _ _ hlibraries => hlibraries.ofList
        exact (ih library hlibrary hrel).1
      | null =>
        rw [readContent]
        exact .ok .none
      | _ =>
        unfold readContent
        exact .error

end Library

/-! ## Resources -/

/-- A resource reorders another if what is in it does, the resources in it among that. -/
inductive Resource.Reorders : Resource → Resource → Prop
  | intro {first second : Resource}
      (frame :
        { second with
          annotations := first.annotations
          methods := first.methods
          resources := first.resources
          traits := first.traits
          resourceType := first.resourceType
          securedBy := first.securedBy
          uriParameters := first.uriParameters } = first)
      (annotations : Block.Reordered AnnotationUse.Reorders first.annotations second.annotations)
      (methods : Block.Reordered Method.Reorders first.methods second.methods)
      (resources : Option.Rel (Reordered Reorders) first.resources second.resources)
      (traits : Block.InOrder Usage.Reorders first.traits second.traits)
      (resourceType : Option.Rel Usage.Reorders first.resourceType second.resourceType)
      (securedBy : Block.InOrder Usage.Reorders first.securedBy second.securedBy)
      (uriParameters :
        Block.Reordered Parameter.Reorders first.uriParameters second.uriParameters) :
      Reorders first second

namespace Resource

theorem carries_ofEntries (path : String) (h : Entries.Rearranged first second)
    {readChildren readChildren' : Reading (List Resource)}
    (hchildren : Carries (Reordered Reorders) readChildren.result readChildren'.result) :
    Carries Reorders (ofEntries source path first readChildren).result
      (ofEntries source path second readChildren').result := by
  have htype : Carries (Option.Rel Usage.Reorders)
      (Reading.lift ((Entries.field? first "type").mapM (readUsage "type"))).result
      (Reading.lift ((Entries.field? second "type").mapM (readUsage "type"))).result := by
    have hfield := rel_field h "type"
    generalize Entries.field? first _ = value, Entries.field? second _ = value' at hfield ⊢
    cases hfield with
    | none => exact .ok .none
    | some hvalue => exact (carries_readUsage "type" hvalue).andThen fun _ _ h => .ok (.some h)
  unfold ofEntries
  simp only [h.text]
  refine .bindSame fun _ => .bindSame fun _ => ?_
  refine .bind (Method.carries_readAll false h) fun _ _ hmethods => ?_
  refine .bind hchildren fun _ _ hresources => ?_
  refine .bind (carries_readTraitUsages h) fun _ _ htraits => .bind htype fun _ _ htype => ?_
  refine .bind (carries_readSecuredBy h) fun _ _ hsecuredBy => ?_
  refine .bind (Parameter.carries_readOfUri h _) fun _ _ huriParameters => ?_
  exact .ok (.intro rfl (reordered_annotationsOf h) hmethods hresources.ofList htraits htype
    hsecuredBy huriParameters)

theorem carries_readEntries (h : Entries.Rearranged first second)
    (hread : ∀ resource ∈ (Tree.mapping first).parts, ∀ resource', resource.Rearranged resource' →
      ∀ path, Carries Reorders (read source path resource).result
        (read source path resource').result) :
    Carries (Reordered Reorders) (readEntries source first).result
      (readEntries source second).result := by
  rw [result_readEntries, result_readEntries]
  refine .collect (h.entries.imp fun entry hentry _ hrel => And.intro hentry hrel) ?_
  rintro entry entry' ⟨hentry, hkey, hvalue⟩
  unfold outcome? pathOf?
  rw [hkey.asString?_eq]
  cases entry.1.asString?.filter _ with
  | none => exact .none
  | some path => exact .some (hread _ (List.mem_map_of_mem hentry) _ hvalue path)

theorem carries_read (h : tree.Rearranged tree') (path : String) :
    Carries Reorders (read source path tree).result (read source path tree').result := by
  induction tree using Tree.induction_on_parts generalizing tree' path with
  | step tree ih =>
    rw [read, read]
    refine .openSlot h ?_
    cases h.reorders with
    | mapping =>
      simp only [Slot.inPlace, readContent]
      refine carries_ofEntries path h (carries_readEntries h fun resource hresource _ hrel => ?_)
      exact ih resource hresource hrel
    | null =>
      simp only [Slot.inPlace, readContent]
      exact carries_ofEntries path .nil (.ok .nil)
    | _ =>
      unfold readContent
      exact .error

end Resource

/-! ## Documents -/

structure Chapter.Reorders (first second : Chapter) : Prop where
  frame : { second with annotations := first.annotations } = first
  annotations : Block.Reordered AnnotationUse.Reorders first.annotations second.annotations

namespace Chapter

theorem carries_read (h : tree.Rearranged tree') :
    Carries Reorders (read source tree).result (read source tree').result := by
  cases h.reorders with
  | mapping =>
    have h : Entries.Rearranged _ _ := h
    unfold read
    simp only [h.text]
    refine .bindSame fun _ => .bindSame fun _ => .bindSame fun _ => .bindSame fun _ => ?_
    exact .ok ⟨rfl, reordered_annotationsOf h⟩
  | _ => exact .error

theorem carries_readAll (h : Entries.Rearranged first second) :
    Carries (Block.InOrder Reorders) (readAll source first).result
      (readAll source second).result := by
  have hfield := h.field "documentation"
  unfold readAll
  generalize Entries.field? first _ = value, Entries.field? second _ = value' at hfield ⊢
  cases hfield with
  | none => exact .ok .none
  | some hvalue =>
    cases hvalue.reorders with
    | sequence =>
      refine .mapReading ?_ fun _ _ => inOrder_ofList
      rw [Reading.result_mapM, Reading.result_mapM]
      exact .mapM hvalue.items fun _ _ => carries_read
    | _ => exact .error

end Chapter

structure Document.Reorders (first second : Document) : Prop where
  frame :
    { second with
      baseUriParameters := first.baseUriParameters
      documentation := first.documentation
      declarations := first.declarations
      securedBy := first.securedBy
      uses := first.uses
      resources := first.resources
      annotations := first.annotations } = first
  baseUriParameters :
    Block.Reordered Parameter.Reorders first.baseUriParameters second.baseUriParameters
  documentation : Block.InOrder Chapter.Reorders first.documentation second.documentation
  declarations : first.declarations.Reorders second.declarations
  securedBy : Block.InOrder Usage.Reorders first.securedBy second.securedBy
  uses : Block.Reordered Library.Reorders first.uses second.uses
  resources : Block.Reordered Resource.Reorders first.resources second.resources
  annotations : Block.Reordered AnnotationUse.Reorders first.annotations second.annotations

namespace Document

theorem carries_ofEntries (hfile : source.context.file = none)
    (h : Entries.Rearranged first second) :
    Carries Reorders (ofEntries source first).result (ofEntries source second).result := by
  have huses : Carries (Block.Reordered Library.Reorders) (Library.readUses source first).result
      (Library.readUses source second).result :=
    Library.carries_readUses h fun _ _ _ hrel => (Library.carries_read_and_readContent hfile hrel).2
  have hresources : Carries (Reordered Resource.Reorders)
      (Resource.readEntries source first).result (Resource.readEntries source second).result :=
    Resource.carries_readEntries h fun _ _ _ => Resource.carries_read
  unfold ofEntries
  simp only [h.text, h.string, h.strings, Protocol.readAll_eq_of_rearranged h]
  refine .bindSame fun _ => .bindSame fun _ => .bindSame fun _ => .bindSame fun _ => ?_
  refine .bindSame fun _ => .bind (Parameter.carries_readOfUri h _) fun _ _ hbaseUriParameters => ?_
  refine .bindSame fun _ => .bindSame fun _ => ?_
  refine .bind (Chapter.carries_readAll h) fun _ _ hdocumentation => ?_
  refine .bind (Declarations.carries_readOfDocument h) fun _ _ hdeclarations => ?_
  refine .bind (carries_readSecuredBy h) fun _ _ hsecuredBy => ?_
  refine .bind huses fun _ _ huses => .bind hresources fun _ _ hresources => ?_
  exact .ok ⟨rfl, hbaseUriParameters, hdocumentation, hdeclarations, hsecuredBy, huses,
    hresources.ofList, reordered_annotationsOf h⟩

/-- **The order of mapping keys does not matter**: what is read without a file from a tree that has
distinct keys and no include directives can be read from every tree that reorders it, and the
documents are equal up to order. -/
theorem ofTree_reorders {first second : Tree} (hreorders : first.Reorders second)
    (hfree : IncludeFree first) (hdistinct : first.DistinctKeys) {files : FileSystem}
    {options : Options} {document : Document}
    (h : (ofTree ⟨files, .detached options⟩ first).result = .ok document) :
    ∃ document', (ofTree ⟨files, .detached options⟩ second).result = .ok document' ∧
      document.Reorders document' := by
  have hrearranged : first.Rearranged second := ⟨hreorders, hfree, hdistinct⟩
  cases hreorders with
  | mapping => exact carries_ofEntries rfl hrearranged document h
  | _ => cases h

/-- An object with a name and an age. -/
def sampleUser : Entries := [(.string "name", .string "Ann"), (.string "age", .string "30")]

/-- Two types, one of them with an example that is an object. -/
def usersTree : Tree :=
  .mapping [(.string "title", .string "Users"),
    (.string "types", .mapping [
      (.string "User", .mapping [(.string "example", .mapping sampleUser)]),
      (.string "Group", .null)])]

/-- The same with the entries of all mappings in another order. -/
def usersTreeReordered : Tree :=
  .mapping [
    (.string "types", .mapping [
      (.string "Group", .null),
      (.string "User", .mapping [(.string "example", .mapping sampleUser.reverse)])]),
    (.string "title", .string "Users")]

theorem usersTree_reorders : usersTree.Reorders usersTreeReordered := by
  have hswap : ∀ {key key' value value' : Tree} (other : String) {inner inner' : Tree},
      key.Reorders key' → value.Reorders value' → inner.Reorders inner' →
      (Tree.mapping [(key, value), (.string other, inner)]).Reorders
        (.mapping [(.string other, inner'), (key', value')]) := by
    intro _ _ _ _ other _ _ hkey hvalue hinner
    refine .mapping (reordered_iff.2 ⟨_, .swap _ _ _, ?_⟩)
    exact .cons (.intro (.string other) hinner) (.cons (.intro hkey hvalue) .nil)
  have hsample : (Tree.mapping sampleUser).Reorders (.mapping sampleUser.reverse) :=
    hswap "age" (.string _) (.string _) (.string _)
  have hexample : (Tree.mapping [(.string "example", .mapping sampleUser)]).Reorders
      (.mapping [(.string "example", .mapping sampleUser.reverse)]) :=
    .mapping (.of_forall₂ (.cons (.intro (.string _) hsample) .nil))
  exact hswap "types" (.string _) (.string _) (hswap "Group" (.string _) hexample .null)

theorem result_ofTree_usersTree :
    (ofTree ⟨.empty, .detached {}⟩ usersTree).result =
      .ok {
        title := "Users"
        declarations.types := some [
          { name := "User"
            facets.examples := some [Example.ofValue "example" (some (.mapping sampleUser))] },
          { name := "Group" }] } := by
  unfold usersTree
  rw [result_ofTree_of_types _ rfl, TypeDeclaration.readAll, readBlock,
    Source.openBlock_of_inline rfl]
  rfl

/-- The types and the example come in another order. -/
theorem ofTree_reorders_usersTree :
    usersTree.Reorders usersTreeReordered ∧ IncludeFree usersTree ∧ usersTree.DistinctKeys ∧
      ∃ document, (ofTree ⟨.empty, .detached {}⟩ usersTree).result = .ok document ∧
        ∃ document', (ofTree ⟨.empty, .detached {}⟩ usersTreeReordered).result = .ok document' ∧
          document.Reorders document' := by
  have hfree : IncludeFree usersTree := by decide
  have hdistinct : usersTree.DistinctKeys := by
    unfold usersTree sampleUser
    simp only [Tree.distinctKeys_mapping, List.map_cons, List.map_nil, List.nodup_cons,
      List.mem_cons, Tree.string.injEq, String.reduceEq, List.not_mem_nil, or_self,
      not_false_eq_true, List.nodup_nil, and_self, or_false, forall_eq_or_imp, forall_eq, true_and]
    exact ⟨.of_parts rfl, ⟨.of_parts rfl, .of_parts rfl⟩, .of_parts rfl⟩
  exact ⟨usersTree_reorders, hfree, hdistinct, _, result_ofTree_usersTree,
    ofTree_reorders usersTree_reorders hfree hdistinct result_ofTree_usersTree⟩

end Document

end RamlDoc
