import RamlDoc.Proofs.Agreement
import RamlDoc.Read.Document

/-!
# Declarations agree

The readers of types, properties and annotation types keep every agreement
(`TypeDeclaration.agree_readAll`, `AnnotationType.agree_readAll`). Readers of type expressions do
not depend on the source at all.
-/

namespace RamlDoc

open Yaml

variable {agreement : Agreement} {source other : Source}

/-! ## Types -/

mutual

/-- A type expression is read without the source, by recursion on its tree. -/
theorem DataType.plain_ofTree? (key : Option String) :
    (tree : Tree) → Plain (DataType.ofTree? key tree)
  | .null => .ok _
  | .string _ => .ok _
  | .mapping entries => by
    unfold ofTree?
    exact plain_ofEntries? key entries
  | .tagged .. | .bool _ | .number _ | .sequence _ => by
    unfold ofTree?
    exact Plain.error fun _ => Error.noConfusion

theorem DataType.plain_ofEntries? (key : Option String) :
    (entries : List (Tree × Tree)) → Plain (DataType.ofEntries? key entries)
  | [] => .ok _
  | (k, v) :: rest => by
    unfold ofEntries?
    split
    · exact plain_ofTree? key v
    · exact plain_ofEntries? key rest

end

/-! ## Declarations -/

namespace Example

/-- An example agrees, whether it is in place or a text from a file. -/
theorem agree_read {tree : Tree}
    (ht : agreement.visits source other tree) (identifier : String) :
    agreement.readings (read source identifier tree) (read other identifier tree) := by
  unfold read
  split
  next hinclude => exact agreement.bind (agreement.text ht hinclude) fun _ => agreement.pure _
  next =>
    cases tree with
    | mapping entries =>
      have hcovers := Agreement.covers_mapping ht
      dsimp only
      split
      · refine agreement.bind (Field.agree_text hcovers _) fun displayName => ?_
        refine agreement.bind (Field.agree_text hcovers _) fun description => ?_
        exact agreement.bindPlain (Field.misfits_of entries _ _ _).plain fun strict =>
          agreement.pure _
      · exact agreement.pure _
    | _ => exact agreement.pure _

/-- The single example and the named ones agree. -/
theorem agree_readAll {entries : Entries}
    (hcovers : agreement.Covers source other entries) :
    agreement.readings (readAll source entries) (readAll other entries) := by
  have hsingle : agreement.readings (readSingle source entries) (readSingle other entries) := by
    unfold readSingle
    cases hfield : Entries.field? entries "example" with
    | none => exact agreement.pure _
    | some tree =>
      exact agreement.bind (agree_read (hcovers.field hfield) _) fun _ => agreement.pure _
  have hnamed : agreement.readings (readNamed source entries) (readNamed other entries) := by
    unfold readNamed
    cases hfield : Entries.field? entries "examples" with
    | none => exact agreement.pure _
    | some tree =>
      cases tree with
      | mapping named =>
        exact agree_readEntries _ (Agreement.covers_mapping (hcovers.field hfield))
          fun name _ hvalue => agree_read hvalue name
      | _ => exact agreement.fail fun _ => Error.noConfusion
  exact agreement.bind hsingle fun _ => agreement.bind hnamed fun _ => agreement.pure _

end Example

/-- Facets agree with whatever is read in their midst, if that agrees. -/
theorem Facets.agree_read {α : Type} {entries : Entries}
    (hcovers : agreement.Covers source other entries) (type : Option DataType)
    {others others' : Reading α} (h : agreement.readings others others') :
    agreement.readings (Facets.read source entries type others)
      (Facets.read other entries type others') := by
  unfold Facets.read
  refine agreement.bindPlain (Restrictions.misfits_read entries type).plain fun restrictions => ?_
  refine agreement.bind (Field.agree_text hcovers _) fun displayName => ?_
  refine agreement.bind (Field.agree_text hcovers _) fun description => ?_
  refine agreement.bindPlain (Field.misfits_strings entries _).plain fun admitted => ?_
  refine agreement.bind h fun others => ?_
  exact agreement.bind (Example.agree_readAll hcovers) fun examples => agreement.pure _

namespace Property

theorem agree_read {tree : Tree}
    (ht : agreement.visits source other tree) (name : String) :
    agreement.readings (read source name tree) (read other name tree) := by
  refine Agreement.openSlot ht none fun source other tree _ _ ht => ?_
  cases tree with
  | mapping entries =>
    have hcovers := Agreement.covers_mapping ht
    refine agreement.bindPlain (DataType.plain_ofTree? _ _) fun type => ?_
    refine agreement.bindPlain (Field.misfits_of entries _ _ _).plain fun required => ?_
    exact agreement.bind (Facets.agree_read hcovers type (agreement.pure ())) fun facets =>
      agreement.pure _
  | null => exact agreement.pure _
  | string expression => exact agreement.pure _
  | _ => exact agreement.fail fun _ => Error.noConfusion

/-- The properties under a key agree. -/
theorem agree_readAll {entries : Entries}
    (hcovers : agreement.Covers source other entries) (key : String) :
    agreement.readings (readAll source (Entries.field? entries key))
      (readAll other (Entries.field? entries key)) :=
  agree_readBlock _ _ _ hcovers fun _ _ name _ hvalue => agree_read hvalue name

end Property

namespace TypeDeclaration

theorem agree_readObject {entries : Entries}
    (hcovers : agreement.Covers source other entries) :
    agreement.readings (readObject source entries) (readObject other entries) := by
  refine agreement.bind (Property.agree_readAll hcovers _) fun properties => ?_
  refine agreement.bindPlain (Field.misfits_of entries _ _ _).plain fun minProperties => ?_
  refine agreement.bindPlain (Field.misfits_of entries _ _ _).plain fun maxProperties => ?_
  refine agreement.bindPlain (Field.misfits_of entries _ _ _).plain fun additionalProperties => ?_
  refine agreement.bindPlain (Field.misfits_of entries _ _ _).plain fun discriminator => ?_
  exact agreement.bindPlain (Field.misfits_of entries _ _ _).plain fun discriminatorValue =>
    agreement.pure _

/-- The facets of a type apart from those that all nodes share agree. -/
theorem agree_readOthers {entries : Entries}
    (hcovers : agreement.Covers source other entries) (items : Option DataType) :
    agreement.readings (readOthers source entries items) (readOthers other entries items) := by
  refine agreement.bind (agree_readObject hcovers) fun object => ?_
  refine agreement.bindPlain (misfits_readArray entries items).plain fun array => ?_
  exact agreement.bind (Property.agree_readAll hcovers _) fun ownFacets => agreement.pure _

theorem agree_read {tree : Tree}
    (ht : agreement.visits source other tree) (name : String) :
    agreement.readings (read source name tree) (read other name tree) := by
  refine Agreement.openSlot ht none fun source other tree _ _ ht => ?_
  cases tree with
  | mapping entries =>
    have hcovers := Agreement.covers_mapping ht
    refine agreement.bindPlain (DataType.plain_ofTree? _ _) fun items => ?_
    refine agreement.bindPlain (DataType.plain_ofTree? _ _) fun declared => ?_
    exact agreement.bind (Facets.agree_read hcovers _ (agree_readOthers hcovers items)) fun _ =>
      agreement.pure _
  | null => exact agreement.pure _
  | string expression => exact agreement.pure _
  | _ => exact agreement.fail fun _ => Error.noConfusion

/-- The declared types under a key agree. -/
theorem agree_readAll {entries : Entries}
    (hcovers : agreement.Covers source other entries) (key : String) :
    agreement.readings (readAll source (Entries.field? entries key))
      (readAll other (Entries.field? entries key)) :=
  agree_readBlock _ _ _ hcovers fun _ _ name _ hvalue => agree_read hvalue name

end TypeDeclaration

namespace AnnotationType

theorem agree_read {tree : Tree}
    (ht : agreement.visits source other tree) (name : String) :
    agreement.readings (read source name tree) (read other name tree) := by
  cases tree with
  | null => exact agreement.pure _
  | string expression =>
    exact agreement.bindPlain (AnnotationKind.misfits_ofExpression _).plain fun _ =>
      agreement.pure _
  | sequence items =>
    exact agreement.bindPlain (AnnotationKind.misfits_ofItems _).plain fun _ => agreement.pure _
  | mapping entries =>
    have hcovers := Agreement.covers_mapping ht
    refine agreement.bind (Property.agree_readAll hcovers _) fun properties => ?_
    refine agreement.bindPlain (AnnotationKind.misfits_ofField _ _).plain fun kind => ?_
    refine agreement.bind (Field.agree_text hcovers _) fun displayName => ?_
    refine agreement.bind (Field.agree_text hcovers _) fun description => ?_
    exact agreement.bindPlain (Field.misfits_strings entries _).plain fun allowedTargets =>
      agreement.pure _
  | _ => exact agreement.fail fun _ => Error.noConfusion

/-- The annotation types under a key agree, and one that fails keeps its name. -/
theorem agree_readAll {entries : Entries}
    (hcovers : agreement.Covers source other entries) (key : String) :
    agreement.readings (readAll source (Entries.field? entries key))
      (readAll other (Entries.field? entries key)) :=
  agree_readBlock _ _ _ hcovers fun _ _ name _ hvalue =>
    agreement.named _ _ (agree_read hvalue name)

end AnnotationType

end RamlDoc
