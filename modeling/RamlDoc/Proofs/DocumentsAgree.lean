import RamlDoc.Proofs.DeclarationsAgree
import RamlDoc.Read.Document

/-!
# Documents agree

The readers of operations, templates and resources keep every agreement. A library that is used by
its path alone leads to a file without a directive, so the readers of libraries and documents keep
the agreements that say how such files compare too (`LibraryAgreement`). The main statement is
`Document.agree_ofTree`.
-/

namespace RamlDoc

open Yaml

variable {agreement : Agreement} {source other : Source}

/-! ## Operations -/

namespace Parameter

theorem agree_ofEntries {entries : Entries}
    (hcovers : agreement.Covers source other entries) (name : String) (type : Option DataType) :
    agreement.readings (ofEntries source name type entries)
      (ofEntries other name type entries) := by
  refine agreement.bind (Field.agree_text hcovers _) fun displayName => ?_
  refine agreement.bind (Field.agree_text hcovers _) fun description => ?_
  refine agreement.bindPlain (Field.misfits_of entries _ _ _).plain fun required => ?_
  refine agreement.bindPlain (Field.misfits_of entries _ _ _).plain fun pattern => ?_
  refine agreement.bindPlain (Field.misfits_strings entries _).plain fun admitted => ?_
  exact agreement.bind (Example.agree_readAll hcovers) fun examples => agreement.pure _

theorem agree_read {tree : Tree}
    (ht : agreement.visits source other tree) (name : String) :
    agreement.readings (read source name tree) (read other name tree) := by
  refine Agreement.openSlot ht none fun source other tree _ _ ht => ?_
  cases tree with
  | mapping entries =>
    have hcovers := Agreement.covers_mapping ht
    refine agreement.bindPlain (DataType.plain_ofTree? _ _) fun type => ?_
    exact agree_ofEntries hcovers name type
  | null => exact agreement.pure _
  | string expression => exact agreement.pure _
  | _ => exact agreement.fail fun _ => Error.noConfusion

theorem agree_readHeaders {entries : Entries}
    (hcovers : agreement.Covers source other entries) :
    agreement.readings (readHeaders source entries) (readHeaders other entries) :=
  agree_readBlock _ _ _ hcovers fun _ _ name _ hvalue => agree_read hvalue name

theorem agree_readOfUri {entries : Entries}
    (hcovers : agreement.Covers source other entries) (key : String) :
    agreement.readings (readOfUri source key entries) (readOfUri other key entries) :=
  agree_readBlock _ _ _ hcovers fun _ _ name _ hvalue => agree_read hvalue name

end Parameter

namespace Payload

theorem agree_ofEntries {entries : Entries}
    (hcovers : agreement.Covers source other entries) :
    agreement.readings (ofEntries source entries) (ofEntries other entries) := by
  refine agreement.bindPlain (DataType.plain_ofTree? _ _) fun type => ?_
  refine agreement.bind (Property.agree_readAll hcovers _) fun properties => ?_
  exact agreement.bind (Example.agree_readAll hcovers) fun examples => agreement.pure _

theorem agree_readQueryString {entries : Entries}
    (hcovers : agreement.Covers source other entries) :
    agreement.readings (readQueryString source entries) (readQueryString other entries) := by
  unfold readQueryString
  cases hfield : Entries.field? entries "queryString" with
  | none => exact agreement.pure _
  | some tree =>
    cases tree with
    | string expression => exact agreement.pure _
    | mapping inner =>
      exact Agreement.map _ (agree_ofEntries (Agreement.covers_mapping (hcovers.field hfield)))
    | _ => exact agreement.fail fun _ => Error.noConfusion

end Payload

namespace MediaTypeBody

theorem agree_read {tree : Tree}
    (ht : agreement.visits source other tree) (identifier : MediaType) :
    agreement.readings (read source identifier tree) (read other identifier tree) := by
  refine Agreement.openSlot ht none fun source other tree _ _ ht => ?_
  cases tree with
  | mapping entries =>
    exact agreement.bind (Payload.agree_ofEntries (Agreement.covers_mapping ht)) fun _ =>
      agreement.pure _
  | null => exact agreement.pure _
  | string expression => exact agreement.pure _
  | _ => exact agreement.fail fun _ => Error.noConfusion

theorem agree_readAll {entries : Entries}
    (hcovers : agreement.Covers source other entries) :
    agreement.readings (readAll source entries) (readAll other entries) := by
  induction entries with
  | nil => exact agreement.pure _
  | cons entry entries ih =>
    refine agreement.bindPlain (misfits_keyText _ _).plain fun identifier => ?_
    split
    · refine agreement.bind (agree_read hcovers.head identifier) fun body => ?_
      exact agreement.bind (ih hcovers.tail) fun bodies => agreement.pure _
    · exact ih hcovers.tail

end MediaTypeBody

namespace Body

theorem agree_ofTree {tree : Tree}
    (ht : agreement.visits source other tree) :
    agreement.readings (ofTree source tree) (ofTree other tree) := by
  cases tree with
  | mapping entries =>
    have hcovers := Agreement.covers_mapping ht
    refine agreement.bind (MediaTypeBody.agree_readAll hcovers) fun mediaTypes => ?_
    exact agreement.bind (Payload.agree_ofEntries hcovers) fun payload => agreement.pure _
  | null => exact agreement.pure _
  | string expression => exact agreement.pure _
  | _ => exact agreement.fail fun _ => Error.noConfusion

theorem agree_read {entries : Entries}
    (hcovers : agreement.Covers source other entries) :
    agreement.readings (read source entries) (read other entries) := by
  unfold read
  cases hfield : Entries.field? entries "body" with
  | none => exact agreement.pure _
  | some tree =>
    exact Agreement.openSlot (hcovers.field hfield) none fun _ _ _ _ _ ht =>
      agree_ofTree ht

end Body

/-- Readers of a node that must be a mapping agree if they do on its entries. -/
theorem agree_entriesOf {α : Type} {tree : Tree} (ht : agreement.visits source other tree)
    (key : String) {read read' : Entries → Reading α}
    (h : ∀ entries, agreement.Covers source other entries →
      agreement.readings (read entries) (read' entries)) :
    agreement.readings (liftM (entriesOf key tree) >>= read)
      (liftM (entriesOf key tree) >>= read') := by
  cases tree with
  | mapping entries => exact h entries (Agreement.covers_mapping ht)
  | null => exact h [] .nil
  | _ => exact agreement.fail fun _ => Error.noConfusion

namespace Response

theorem agree_read {tree : Tree}
    (ht : agreement.visits source other tree) (code : Nat) :
    agreement.readings (read source code tree) (read other code tree) := by
  refine agree_entriesOf ht _ fun entries hcovers => ?_
  refine agreement.bind (Field.agree_text hcovers _) fun description => ?_
  refine agreement.bind (Parameter.agree_readHeaders hcovers) fun headers => ?_
  exact agreement.bind (Body.agree_read hcovers) fun body => agreement.pure _

theorem agree_ofCodes {entries : Entries}
    (hcovers : agreement.Covers source other entries) :
    agreement.readings (ofCodes source entries) (ofCodes other entries) := by
  induction entries with
  | nil => exact agreement.pure _
  | cons entry entries ih =>
    unfold ofCodes
    split
    · exact agreement.bind (agreement.skipped _) fun _ => ih hcovers.tail
    · next code _ =>
      refine agreement.bind (agree_read hcovers.head code) fun response => ?_
      exact agreement.bind (ih hcovers.tail) fun responses => agreement.pure _

theorem agree_readAll {entries : Entries}
    (hcovers : agreement.Covers source other entries) :
    agreement.readings (readAll source entries) (readAll other entries) := by
  unfold readAll
  cases hfield : Entries.field? entries "responses" with
  | none => exact agreement.pure _
  | some tree =>
    exact agree_entriesOf (hcovers.field hfield) _ fun codes hcodes =>
      Agreement.map _ (agree_ofCodes hcodes)

end Response

namespace Exchange

theorem agree_read {entries : Entries}
    (hcovers : agreement.Covers source other entries) :
    agreement.readings (read source entries) (read other entries) := by
  refine agreement.bind (Parameter.agree_readHeaders hcovers) fun headers => ?_
  refine agreement.bind (Property.agree_readAll hcovers _) fun queryParameters => ?_
  refine agreement.bind (Payload.agree_readQueryString hcovers) fun queryString => ?_
  exact agreement.bind (Response.agree_readAll hcovers) fun responses => agreement.pure _

theorem agree_readOfMethod {entries : Entries}
    (hcovers : agreement.Covers source other entries) :
    agreement.readings (readOfMethod source entries) (readOfMethod other entries) := by
  refine agreement.bind (Property.agree_readAll hcovers _) fun queryParameters => ?_
  refine agreement.bind (Parameter.agree_readHeaders hcovers) fun headers => ?_
  refine agreement.bind (Payload.agree_readQueryString hcovers) fun queryString => ?_
  exact agreement.bind (Response.agree_readAll hcovers) fun responses => agreement.pure _

end Exchange

namespace Method

theorem agree_read {tree : Tree}
    (ht : agreement.visits source other tree) (verb : Verb) (optional : Bool) :
    agreement.readings (read source verb optional tree) (read other verb optional tree) := by
  refine agree_entriesOf ht _ fun entries hcovers => ?_
  refine agreement.bind (Field.agree_text hcovers _) fun displayName => ?_
  refine agreement.bind (Field.agree_text hcovers _) fun description => ?_
  refine agreement.bind (Exchange.agree_readOfMethod hcovers) fun exchange => ?_
  refine agreement.bind (Body.agree_read hcovers) fun body => ?_
  refine agreement.bindPlain (Protocol.misfits_readAll entries).plain fun protocols => ?_
  refine agreement.bindPlain (misfits_readTraitUsages entries).plain fun traits => ?_
  exact agreement.bindPlain (misfits_readSecuredBy entries).plain fun securedBy => agreement.pure _

theorem agree_readAll {entries : Entries}
    (hcovers : agreement.Covers source other entries) (allowOptional : Bool) :
    agreement.readings (readAll source allowOptional entries)
      (readAll other allowOptional entries) := by
  refine Agreement.map _ ?_
  induction entries with
  | nil => exact agreement.pure _
  | cons entry entries ih =>
    unfold ofVerbs
    split
    · exact ih hcovers.tail
    · next verb optional _ =>
      refine agreement.bind (agree_read hcovers.head verb optional) fun method => ?_
      exact agreement.bind (ih hcovers.tail) fun methods => agreement.pure _

end Method

/-! ## Templates and security schemes -/

/-- Readers of declarations that may be fragments agree if they do on the entries of one. -/
theorem agree_readFragments {α : Type}
    (key construct field : String) (fragment : FragmentKind) (kind : NodeKind)
    {ofEntries : Source → String → Entries → Reading α} {entries : Entries}
    (hcovers : agreement.Covers source other entries)
    (h : ∀ source other name entries, agreement.Covers source other entries →
      agreement.readings (ofEntries source name entries) (ofEntries other name entries)) :
    agreement.readings
      (readFragments source key construct fragment kind ofEntries (Entries.field? entries field))
      (readFragments other key construct fragment kind ofEntries
        (Entries.field? entries field)) := by
  refine agree_readBlock _ _ _ hcovers fun source other name tree ht => ?_
  refine agreement.named kind name ?_
  refine Agreement.openSlot ht fragment fun _ _ _ _ _ ht => ?_
  exact agree_entriesOf ht name fun entries hcovers => h _ _ name entries hcovers

theorem TraitDefinition.agree_readAll {entries : Entries}
    (hcovers : agreement.Covers source other entries) (key : String) :
    agreement.readings (readAll source (Entries.field? entries key))
      (readAll other (Entries.field? entries key)) := by
  refine agree_readFragments _ _ _ _ _ hcovers fun _ _ name entries hcovers => ?_
  refine agreement.bind (Field.agree_text hcovers _) fun usage => ?_
  refine agreement.bind (Field.agree_text hcovers _) fun displayName => ?_
  refine agreement.bind (Field.agree_text hcovers _) fun description => ?_
  refine agreement.bind (Exchange.agree_read hcovers) fun exchange => ?_
  refine agreement.bind (Body.agree_read hcovers) fun body => ?_
  refine agreement.bindPlain (Protocol.misfits_readAll entries).plain fun protocols => ?_
  exact agreement.bindPlain (misfits_readSecuredBy entries).plain fun securedBy => agreement.pure _

theorem ResourceType.agree_readAll {entries : Entries}
    (hcovers : agreement.Covers source other entries) (key : String) :
    agreement.readings (readAll source (Entries.field? entries key))
      (readAll other (Entries.field? entries key)) := by
  refine agree_readFragments _ _ _ _ _ hcovers fun _ _ identifier entries hcovers => ?_
  refine agreement.bind (Field.agree_text hcovers _) fun usage => ?_
  refine agreement.bind (Field.agree_text hcovers _) fun displayName => ?_
  refine agreement.bind (Field.agree_text hcovers _) fun description => ?_
  refine agreement.bind (Method.agree_readAll hcovers _) fun methods => ?_
  refine agreement.bind (Parameter.agree_readOfUri hcovers _) fun uriParameters => ?_
  refine agreement.bindPlain (misfits_readTraitUsages entries).plain fun traits => ?_
  exact agreement.bindPlain (misfits_readSecuredBy entries).plain fun securedBy => agreement.pure _

theorem SecurityDescription.agree_read {entries : Entries}
    (hcovers : agreement.Covers source other entries) :
    agreement.readings (read source entries) (read other entries) := by
  unfold read
  cases hfield : Entries.field? entries "describedBy" with
  | none => exact agreement.pure _
  | some tree =>
    exact agree_entriesOf (hcovers.field hfield) _ fun entries hcovers =>
      agreement.bind (Exchange.agree_read hcovers) fun exchange => agreement.pure _

theorem SecurityScheme.agree_readAll {entries : Entries}
    (hcovers : agreement.Covers source other entries) (key : String) :
    agreement.readings (readAll source (Entries.field? entries key))
      (readAll other (Entries.field? entries key)) := by
  refine agree_readFragments _ _ _ _ _ hcovers fun _ _ identifier entries hcovers => ?_
  refine agreement.bindPlain (SecurityType.misfits_read entries).plain fun type => ?_
  refine agreement.bindPlain (SecuritySettings.misfits_read type entries).plain fun settings => ?_
  refine agreement.bind (Field.agree_text hcovers _) fun displayName => ?_
  refine agreement.bind (Field.agree_text hcovers _) fun description => ?_
  exact agreement.bind (SecurityDescription.agree_read hcovers) fun describedBy =>
    agreement.pure _

/-! ## Resources -/

namespace Resource

theorem agree_ofEntries {entries : Entries}
    (hcovers : agreement.Covers source other entries) (path : String)
    {children children' : Reading (List Resource)} (h : agreement.readings children children') :
    agreement.readings (ofEntries source path entries children)
      (ofEntries other path entries children') := by
  refine agreement.bind (Field.agree_text hcovers _) fun displayName => ?_
  refine agreement.bind (Field.agree_text hcovers _) fun description => ?_
  refine agreement.bind (Method.agree_readAll hcovers _) fun methods => ?_
  refine agreement.bind h fun resources => ?_
  refine agreement.bindPlain (misfits_readTraitUsages entries).plain fun traits => ?_
  refine agreement.bindPlain (misfits_mapM_readUsage _ _).plain fun resourceType => ?_
  refine agreement.bindPlain (misfits_readSecuredBy entries).plain fun securedBy => ?_
  exact agreement.bind (Parameter.agree_readOfUri hcovers _) fun uriParameters =>
    agreement.pure _

mutual

theorem agree_read {source other : Source} (path : String)
    (tree : Tree) (ht : agreement.visits source other tree) :
    agreement.readings (read source path tree) (read other path tree) := by
  rw [read, read]
  exact Agreement.openSlot ht none fun origin _ content within _ ht =>
    agree_readContent path content ht
termination_by (source.remaining, sizeOf tree, 1)
decreasing_by
  simp only [Prod.lex_def]
  omega

theorem agree_readContent {source other : Source}
    (path : String) (tree : Tree) (ht : agreement.visits source other tree) :
    agreement.readings (readContent source path tree) (readContent other path tree) := by
  cases tree with
  | mapping entries =>
    have hcovers := Agreement.covers_mapping ht
    rw [readContent, readContent]
    exact agree_ofEntries hcovers path (agree_readEntries entries hcovers)
  | null =>
    rw [readContent, readContent]
    exact agree_ofEntries .nil path (agreement.pure [])
  | _ =>
    unfold readContent
    exact agreement.fail fun _ => Error.noConfusion
termination_by (source.remaining, sizeOf tree, 0)

/-- The readers of the resources in a mapping agree. -/
theorem agree_readEntries {source other : Source}
    (entries : List (Tree × Tree)) (hcovers : agreement.Covers source other entries) :
    agreement.readings (readEntries source entries) (readEntries other entries) := by
  match entries with
  | [] =>
    rw [readEntries, readEntries]
    exact agreement.pure []
  | (key, value) :: entries =>
    rw [readEntries, readEntries]
    split
    · exact agree_readEntries entries hcovers.tail
    · next path _ =>
      refine agreement.bind (agree_read path value hcovers.head) fun resource => ?_
      exact agreement.bind (agree_readEntries entries hcovers.tail) fun resources =>
        agreement.pure _
termination_by (source.remaining, sizeOf entries, 0)

end

end Resource

/-! ## Libraries -/

namespace Declarations

theorem agree_readOfDocument {entries : Entries}
    (hcovers : agreement.Covers source other entries) :
    agreement.readings (readOfDocument source entries) (readOfDocument other entries) := by
  refine agreement.bind (TypeDeclaration.agree_readAll hcovers _) fun types => ?_
  refine agreement.bind (TraitDefinition.agree_readAll hcovers _) fun traits => ?_
  refine agreement.bind (ResourceType.agree_readAll hcovers _) fun resourceTypes => ?_
  refine agreement.bind (AnnotationType.agree_readAll hcovers _) fun annotationTypes => ?_
  exact agreement.bind (SecurityScheme.agree_readAll hcovers _) fun securitySchemes =>
    agreement.pure _

theorem agree_readOfLibrary {entries : Entries}
    (hcovers : agreement.Covers source other entries) :
    agreement.readings (readOfLibrary source entries) (readOfLibrary other entries) := by
  refine agreement.bind (TypeDeclaration.agree_readAll hcovers _) fun types => ?_
  refine agreement.bind (ResourceType.agree_readAll hcovers _) fun resourceTypes => ?_
  refine agreement.bind (TraitDefinition.agree_readAll hcovers _) fun traits => ?_
  refine agreement.bind (SecurityScheme.agree_readAll hcovers _) fun securitySchemes => ?_
  exact agreement.bind (AnnotationType.agree_readAll hcovers _) fun annotationTypes =>
    agreement.pure _

end Declarations

/-- An agreement that also says how libraries compare that are used by their path alone. -/
structure LibraryAgreement extends Agreement where
  library : ∀ {α : Type} {source other : Source} {tree : Tree} {target : String} (name : String)
    {read : Included source → Reading α} {read' : Included other → Reading α},
    visits source other tree → Library.pathOf? tree = some target →
      (∀ inner inner' content nested nested', visits inner inner' content →
        readings (read ⟨inner, content, nested⟩) (read' ⟨inner', content, nested'⟩)) →
      readings
        ((source.resolveTarget target (some .library) >>= read).mapError (.failed .library name))
        ((other.resolveTarget target (some .library) >>= read').mapError (.failed .library name))

namespace Library

theorem agree_ofEntries {entries : Entries}
    (hcovers : agreement.Covers source other entries) (identifier : String)
    {used used' : Reading (Block Library)} (h : agreement.readings used used') :
    agreement.readings (ofEntries source identifier entries used)
      (ofEntries other identifier entries used') := by
  refine agreement.bind (Field.agree_text hcovers _) fun usage => ?_
  refine agreement.bind (Declarations.agree_readOfLibrary hcovers) fun declarations => ?_
  exact agreement.bind h fun uses => agreement.pure _

variable {agreement : LibraryAgreement}

mutual

/-- The readers of the libraries in the `uses` field agree. -/
theorem agree_readUses {source other : Source}
    (entries : Entries) (hcovers : agreement.Covers source other entries) :
    agreement.readings (readUses source entries) (readUses other entries) := by
  rw [readUses, readUses]
  split
  · exact agreement.pure none
  · next tree htree =>
    have := sizeOf_field?_lt htree
    exact Agreement.openBlock (hcovers.field htree) fun origin _ content within _ ht =>
      agree_readContent content ht
termination_by (source.remaining, sizeOf entries, 0)
decreasing_by
  simp only [Prod.lex_def]
  omega

theorem agree_readContent {source other : Source}
    (tree : Tree) (ht : agreement.visits source other tree) :
    agreement.readings (readContent source tree) (readContent other tree) := by
  cases tree with
  | mapping entries =>
    rw [readContent, readContent]
    exact Agreement.map _ (agree_readEntries entries (Agreement.covers_mapping ht))
  | null =>
    rw [readContent, readContent]
    exact agreement.pure none
  | _ =>
    unfold readContent
    exact agreement.fail fun _ => Error.noConfusion
termination_by (source.remaining, sizeOf tree, 0)

theorem agree_readEntries {source other : Source}
    (entries : List (Tree × Tree)) (hcovers : agreement.Covers source other entries) :
    agreement.readings (readEntries source entries) (readEntries other entries) := by
  match entries with
  | [] =>
    rw [readEntries, readEntries]
    exact agreement.pure []
  | (key, value) :: entries =>
    rw [readEntries, readEntries]
    refine agreement.bindPlain (misfits_keyText _ key).plain fun name => ?_
    refine agreement.bind (agree_read name value hcovers.head) fun library => ?_
    exact agreement.bind (agree_readEntries entries hcovers.tail) fun libraries =>
      agreement.pure _
termination_by (source.remaining, sizeOf entries, 0)

/-- The readers of a library agree once an error is told with its name. -/
theorem agree_read {source other : Source}
    (identifier : String) (tree : Tree) (ht : agreement.visits source other tree) :
    agreement.readings ((read source identifier tree).mapError (.failed .library identifier))
      ((read other identifier tree).mapError (.failed .library identifier)) := by
  rw [read, read]
  split
  · next target htarget =>
    exact agreement.library identifier ht htarget fun inner _ content nested _ ht =>
      agree_readInPlace identifier content ht
  · exact agreement.named _ _ (agree_readInPlace identifier tree ht)
termination_by (source.remaining, sizeOf tree, 2)
decreasing_by
  · simp only [Prod.lex_def]
    omega
  · simp [Prod.lex_def]

theorem agree_readInPlace {source other : Source}
    (identifier : String) (tree : Tree) (ht : agreement.visits source other tree) :
    agreement.readings (readInPlace source identifier tree)
      (readInPlace other identifier tree) := by
  cases tree with
  | mapping entries =>
    have hcovers := Agreement.covers_mapping ht
    rw [readInPlace, readInPlace]
    exact agree_ofEntries hcovers identifier (agree_readUses entries hcovers)
  | null =>
    rw [readInPlace, readInPlace]
    exact agree_ofEntries .nil identifier (agreement.pure none)
  | _ =>
    unfold readInPlace
    exact agreement.fail fun _ => Error.noConfusion
termination_by (source.remaining, sizeOf tree, 1)

end

end Library

/-! ## Documents -/

theorem Chapter.agree_readAll {entries : Entries}
    (hcovers : agreement.Covers source other entries) :
    agreement.readings (readAll source entries) (readAll other entries) := by
  unfold readAll
  cases hfield : Entries.field? entries "documentation" with
  | none => exact agreement.pure _
  | some tree =>
    cases tree with
    | sequence items =>
      refine Agreement.map _ (Agreement.mapM fun item hitem => ?_)
      have hitem : agreement.visits source other item := agreement.part (hcovers.field hfield) hitem
      cases item with
      | mapping entries =>
        have hcovers := Agreement.covers_mapping hitem
        refine agreement.bind (Field.agree_text hcovers _) fun title => ?_
        refine agreement.bindPlain (Field.misfits_required _ _ title).plain fun title => ?_
        refine agreement.bind (Field.agree_text hcovers _) fun content => ?_
        exact agreement.bindPlain (Field.misfits_required _ _ content).plain fun content =>
          agreement.pure _
      | _ => exact agreement.fail fun _ => Error.noConfusion
    | _ => exact agreement.fail fun _ => Error.noConfusion

/-- The readers of documents agree. -/
theorem Document.agree_ofTree (agreement : LibraryAgreement)
    {tree : Tree} (ht : agreement.visits source other tree) :
    agreement.readings (ofTree source tree) (ofTree other tree) := by
  cases tree with
  | mapping entries =>
    have hcovers := Agreement.covers_mapping ht
    refine agreement.bind (Field.agree_text hcovers _) fun title => ?_
    refine agreement.bindPlain (Field.misfits_required _ _ title).plain fun title => ?_
    refine agreement.bind (Field.agree_text hcovers _) fun description => ?_
    refine agreement.bindPlain (Field.misfits_of entries _ _ _).plain fun version => ?_
    refine agreement.bindPlain (Field.misfits_of entries _ _ _).plain fun baseUri => ?_
    refine agreement.bind (Parameter.agree_readOfUri hcovers _) fun baseUriParameters => ?_
    refine agreement.bindPlain (Protocol.misfits_readAll entries).plain fun protocols => ?_
    refine agreement.bindPlain (Field.misfits_strings entries _).plain fun mediaTypes => ?_
    refine agreement.bind (Chapter.agree_readAll hcovers) fun documentation => ?_
    refine agreement.bind (Declarations.agree_readOfDocument hcovers) fun declarations => ?_
    refine agreement.bindPlain (misfits_readSecuredBy entries).plain fun securedBy => ?_
    refine agreement.bind (Library.agree_readUses entries hcovers) fun uses => ?_
    exact agreement.bind (Resource.agree_readEntries entries hcovers) fun resources =>
      agreement.pure _
  | _ => exact agreement.fail fun _ => Error.noConfusion

end RamlDoc
