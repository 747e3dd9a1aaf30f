import RamlDoc.Proofs.DocumentSites
import RamlDoc.Proofs.EntryPoints
import RamlDoc.Proofs.FieldsRead

/-!
# Internal errors

A type expression has no rule for a tagged value. A value has such a tag (`TypeTag`) if it is tagged
itself or, a mapping, has a tagged value under `type`, at any depth. Nothing else is an internal
error, and it is told in full: the root cause of an error is internal exactly if reading goes from
site to site, each of which stops at the next, to a type with a tag (`Document.internal_iff`).
-/

namespace RamlDoc

open Yaml

/-- The tag that the type engine finds on a value, or on the type that is looked up in it. -/
inductive TypeTag : Tree → String → Prop
  | tagged (tag : String) (value : Tree) : TypeTag (.tagged tag value) tag
  | mapping {entries : Entries} {value : Tree} {tag : String}
    (hget : Entries.get? entries "type" = some value) (hvalue : TypeTag value tag) :
    TypeTag (.mapping entries) tag

/-- What the error about a tag says. -/
def tagMessage (tag : String) : String := "unexpected tag !" ++ tag ++ " in type expression"

namespace DataType

theorem ofTree?_of_typeTag {tree : Tree} {tag : String} (h : TypeTag tree tag) :
    ofTree? (some "type") tree = .error (.internal (tagMessage tag)) := by
  induction h with
  | tagged tag value =>
    unfold ofTree?
    rfl
  | mapping hget _ ih => rw [ofTree?_mapping, hget, Option.elim_some, ih]

/-- The type engine refuses a value because it does not fit, or because of a tag. -/
theorem error_cases_of_ofTree? {tree : Tree} {error : Error}
    (h : ofTree? (some "type") tree = .error error) :
    error.isMisfit ∨ ∃ tag, TypeTag tree tag ∧ error = .internal (tagMessage tag) := by
  induction tree using Tree.induction_on_parts with
  | step tree ih =>
    cases tree with
    | null => cases h
    | string text => cases h
    | mapping entries =>
      rw [ofTree?_mapping] at h
      cases hget : Entries.get? entries "type" with
      | none =>
        rw [hget] at h
        cases h
      | some value =>
        rw [hget] at h
        obtain ⟨entry, hentry, rfl⟩ := Option.map_eq_some_iff.1 hget
        have hpart : entry.2 ∈ (Tree.mapping entries).parts :=
          List.mem_map_of_mem (List.mem_of_find?_eq_some hentry)
        refine (ih _ hpart h).imp_right ?_
        rintro ⟨tag, htag, herror⟩
        exact ⟨tag, .mapping hget htag, herror⟩
    | tagged tag value =>
      unfold ofTree? at h
      exact .inr ⟨tag, .tagged tag value, (Except.error.inj h).symm⟩
    | _ =>
      unfold ofTree? at h
      obtain rfl := Except.error.inj h
      exact .inl rfl

end DataType

namespace Site

theorem rootCause_tell (kind : SiteKind) (error : Error) :
    (kind.tell error).rootCause = error.rootCause := by
  cases kind <;> rfl

/-- Reading the outer site stops at the inner one, and the error is that of the inner site. -/
def StopsAt (outer inside : Site) : Prop :=
  inside ∈ outer.inner ∧ ∃ cause, inside.result = .error cause ∧
    outer.result = .error (outer.kind.tell cause)

theorem result_dataType_eq_error_iff {source : Source} {tree : Tree} {error : Error} :
    (⟨.dataType, source, tree⟩ : Site).result = .error error ↔
      DataType.ofTree? (some "type") tree = .error error := by
  unfold result SiteKind.read
  rw [Reading.result_bind, Reading.result_monadLift]
  cases DataType.ofTree? (some "type") tree with
  | error cause =>
    change Except.error (SiteKind.dataType.tell cause) = .error error ↔ _
    rw [Except.error.injEq, Except.error.injEq]
    rfl
  | ok type =>
    change Except.ok none = .error error ↔ _
    exact ⟨nofun, nofun⟩

/-- The root cause of the error of a site is internal exactly if reading stops at a type with a
tag. -/
theorem internal_iff_stopsAt {site : Site} {message : String} :
    (∃ error, site.result = .error error ∧ error.rootCause = .internal message) ↔
      ∃ inside tag, Relation.ReflTransGen StopsAt site inside ∧ inside.kind = .dataType ∧
        TypeTag inside.tree tag ∧ message = tagMessage tag := by
  constructor
  · rintro ⟨error, herror, hroot⟩
    induction site using wellFounded_inner.induction generalizing error with
    | _ site ih =>
      by_cases hkind : site.kind = .dataType
      · obtain ⟨kind, source, tree⟩ := site
        obtain rfl := hkind
        have hengine := DataType.error_cases_of_ofTree? (result_dataType_eq_error_iff.1 herror)
        rcases hengine with hmisfit | ⟨tag, htag, rfl⟩
        · rw [Error.rootCause_of_isOrdinary (Error.isOrdinary_of_isMisfit hmisfit)] at hroot
          rw [hroot] at hmisfit
          cases hmisfit
        · cases hroot
          exact ⟨_, tag, .refl, rfl, htag, rfl⟩
      · obtain ⟨cause, rfl, hcause⟩ := error_cases hkind herror
        rw [rootCause_tell] at hroot
        rcases hcause with hordinary | ⟨inside, hinside, hresult⟩
        · rw [Error.rootCause_of_isOrdinary hordinary] at hroot
          rw [hroot] at hordinary
          cases hordinary
        · obtain ⟨found, tag, hstops, htag⟩ := ih inside hinside cause hresult hroot
          exact ⟨found, tag, hstops.head ⟨hinside, cause, hresult, herror⟩, htag⟩
  · rintro ⟨⟨kind, source, tree⟩, tag, hstops, rfl, htag, rfl⟩
    induction hstops using Relation.ReflTransGen.head_induction_on with
    | refl =>
      exact ⟨_, result_dataType_eq_error_iff.2 (DataType.ofTree?_of_typeTag htag), rfl⟩
    | head hstop _ ih =>
      obtain ⟨-, cause, hinside, houter⟩ := hstop
      obtain ⟨error, herror, hroot⟩ := ih
      obtain rfl := Except.error.inj (herror.symm.trans hinside)
      exact ⟨_, houter, (rootCause_tell _ _).trans hroot⟩

/-- What stops the reading of a site is in the site. -/
theorem reaches_of_stopsAt {site inside : Site}
    (h : Relation.ReflTransGen StopsAt site inside) : site.Reaches inside :=
  Relation.ReflTransGen.mono (fun _ _ hstop => hstop.1) _ _ h

end Site

/-- No error is internal where no declared type has a tag. -/
theorem Site.rootCause_ne_internal {site : Site} {error : Error}
    (h : ∀ inside, site.Reaches inside → inside.kind = .dataType → ∀ tag, ¬TypeTag inside.tree tag)
    (herror : site.result = .error error) (message : String) :
    error.rootCause ≠ .internal message := by
  intro hroot
  obtain ⟨inside, tag, hstops, hkind, htag, -⟩ := internal_iff_stopsAt.1 ⟨error, herror, hroot⟩
  exact h inside (reaches_of_stopsAt hstops) hkind tag htag

namespace Document

/-- Reading the document of a text comes to a type with a tag and stops there. -/
def StopsAtTag (source : Source) (text : List Char) (tag : String) : Prop :=
  Header.checkRoot text = .ok () ∧
    ∃ tree, (Fixup.readTree source.context.options text).result = .ok tree ∧
      (source.context.file = none → IncludeFree tree) ∧
        ∃ inside : Site, Relation.ReflTransGen Site.StopsAt ⟨.document, source, tree⟩ inside ∧
          inside.kind = .dataType ∧ TypeTag inside.tree tag

/-- A text whose tree may be read has the result of its tree. -/
theorem result_ofText_of_accepted {source : Source} {text : List Char} {tree : Tree}
    (hheader : Header.checkRoot text = .ok ())
    (htree : (Fixup.readTree source.context.options text).result = .ok tree)
    (hfree : source.context.file = none → IncludeFree tree) :
    (ofText source text).result = (ofTree source tree).result := by
  cases hfile : source.context.file with
  | none => exact result_ofText_of_tree source hheader htree (hfree hfile)
  | some file =>
    rw [result_ofText, hheader, htree, FileContext.includesAvailable, hfile]
    rfl

theorem internal_of_ofText_iff {source : Source} {text : List Char} {message : String} :
    (∃ error, (ofText source text).result = .error error ∧ error.rootCause = .internal message) ↔
      ∃ tag, StopsAtTag source text tag ∧ message = tagMessage tag := by
  have not_ordinary {error : Error} (hordinary : error.isOrdinary)
      (hroot : error.rootCause = .internal message) : False := by
    rw [Error.rootCause_of_isOrdinary hordinary] at hroot
    rw [hroot] at hordinary
    cases hordinary
  have hsite : ∀ tree, (⟨.document, source, tree⟩ : Site).result =
      (some ∘ .document) <$> (ofTree source tree).result :=
    fun _ => Site.result_of_unnamed rfl rfl
  constructor
  · rintro ⟨error, herror, hroot⟩
    cases hheader : Header.checkRoot text with
    | error cause =>
      obtain rfl := Except.error.inj ((result_ofText_of_header hheader).symm.trans herror)
      exact (not_ordinary (Header.ordinary_checkRoot _ _ hheader) hroot).elim
    | ok =>
      cases htree : (Fixup.readTree source.context.options text).result with
      | error cause =>
        obtain rfl := Except.error.inj ((result_ofText_of_refused hheader htree).symm.trans herror)
        exact (not_ordinary (Fixup.ordinary_readTree _ _ _ htree) hroot).elim
      | ok tree =>
        by_cases hfree : source.context.file = none → IncludeFree tree
        · have hread := result_ofText_of_accepted hheader htree hfree
          have hdocument : (⟨.document, source, tree⟩ : Site).result = .error error := by
            rw [hsite, ← hread, herror]
            rfl
          obtain ⟨inside, tag, hstops, hkind, htag, hmessage⟩ :=
            Site.internal_iff_stopsAt.1 ⟨error, hdocument, hroot⟩
          exact ⟨tag, ⟨hheader, tree, htree, hfree, inside, hstops, hkind, htag⟩, hmessage⟩
        · rw [Classical.not_imp] at hfree
          obtain ⟨hfile, hfree⟩ := hfree
          obtain ⟨target, htarget⟩ := Option.ne_none_iff_exists'.1 hfree
          have hbarred := result_ofText_of_directive source hfile hheader htree htarget
          obtain rfl := Except.error.inj (hbarred.symm.trans herror)
          cases hroot
  · rintro ⟨tag, ⟨hheader, tree, htree, hfree, inside, hstops, hkind, htag⟩, hmessage⟩
    obtain ⟨error, herror, hroot⟩ :=
      Site.internal_iff_stopsAt.2 ⟨inside, tag, hstops, hkind, htag, hmessage⟩
    refine ⟨error, ?_, hroot⟩
    rw [result_ofText_of_accepted hheader htree hfree]
    rw [hsite] at herror
    cases hread : (ofTree source tree).result with
    | error cause =>
      rw [hread] at herror
      exact congrArg _ (Except.error.inj herror)
    | ok document =>
      rw [hread] at herror
      cases herror

/-- A document in memory or in a file has an error with an internal root cause exactly if reading it
comes to a type with a tag and stops there. The error is about that tag. -/
theorem internal_iff (text : String) (options : Options) (files : FileSystem) (path : Path)
    (message : String) :
    ((∃ error, (ofString text options).result = .error error ∧
        error.rootCause = .internal message) ↔
      ∃ tag, StopsAtTag ⟨.empty, .detached options⟩ text.toList tag ∧ message = tagMessage tag) ∧
    ((∃ error, (ofFile files path options).result = .error error ∧
        error.rootCause = .internal message) ↔
      ∃ text, files.load path = .ok text ∧
        ∃ tag, StopsAtTag ⟨files, .forFile files path options⟩ text.toList tag ∧
          message = tagMessage tag) := by
  refine ⟨internal_of_ofText_iff, ?_⟩
  unfold ofFile
  rw [Reading.result_bind, Reading.result_monadLift]
  cases hload : files.load path with
  | error cause =>
    have hordinary := files.ordinary_load path cause hload
    constructor
    · rintro ⟨error, herror, hroot⟩
      obtain rfl := Except.error.inj herror
      rw [Error.rootCause_of_isOrdinary hordinary] at hroot
      rw [hroot] at hordinary
      cases hordinary
    · rintro ⟨text, ⟨⟩, -⟩
  | ok text =>
    refine Iff.trans internal_of_ofText_iff ⟨fun h => ⟨text, rfl, h⟩, ?_⟩
    rintro ⟨text', htext, h⟩
    obtain rfl := Except.ok.inj htext
    exact h

/-- The text of a document with one type, which a tagged value declares. -/
def taggedTypeText : String := "#%RAML 1.0\ntitle: Users\ntypes:\n  A:\n    type: !t string\n"

/-- The types in it. -/
def taggedTypes : Tree :=
  .mapping [(.string "A", .mapping [(.string "type", .tagged "t" (.string "string"))])]

theorem result_readAll_taggedTypes (source : Source) :
    (TypeDeclaration.readAll source (some taggedTypes)).result =
      .error (.internal (tagMessage "t")) := by
  change (source.openBlock taggedTypes >>= _).result = _
  rw [Source.openBlock_of_inline rfl]
  rfl

/-- The type engine is left without a rule where a tagged value declares a type. -/
theorem internal_of_tagged_type :
    ¬∀ text options error, (ofString text options).result = .error error →
      ∀ message, error.rootCause ≠ .internal message := by
  intro h
  have hheader : Header.checkRoot taggedTypeText.toList = .ok () := by cbv
  have htree : (Fixup.readTree {} taggedTypeText.toList).result =
      .ok (.mapping [(.string "title", .string "Users"), (.string "types", taggedTypes)]) := by cbv
  have hfree : IncludeFree
      (.mapping [(.string "title", .string "Users"), (.string "types", taggedTypes)]) := by
    unfold IncludeFree
    decide
  have hresult := result_ofText_of_tree (⟨.empty, .detached {}⟩) hheader htree hfree
  rw [result_ofTree_of_types _ rfl, result_readAll_taggedTypes] at hresult
  exact h taggedTypeText {} _ hresult _ rfl

end Document

end RamlDoc
