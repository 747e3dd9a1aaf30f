import Mathlib
import RamlDoc.Proofs.IncludeFree

/-!
# Documents in memory and in files

A document is read from a text in memory or from a file. In memory, the error that includes are
unavailable tells of the first directive in the tree and of nothing else
(`Document.ofString_eq_includesUnavailable_iff`). Where that error does not arise, also not inside a
named declaration, the file that holds the text gives the same result
(`Document.ofFile_eq_ofString`).
-/

namespace RamlDoc

open Yaml

theorem Header.plain_checkRoot (text : List Char) : Plain (Header.checkRoot text) := by
  unfold Header.checkRoot
  split
  · exact Plain.error fun _ => Error.noConfusion
  · dsimp only
    split
    · exact Plain.error fun _ => Error.noConfusion
    · split
      · exact Plain.error fun _ => Error.noConfusion
      · split
        · exact .ok _
        · exact Plain.error fun _ => Error.noConfusion

namespace Fixup

theorem plain_readYaml (text : List Char) : Plain (readYaml text) := by
  unfold readYaml
  cases Yaml.read text with
  | error cause => exact Plain.error fun _ => Error.noConfusion
  | ok tree => exact .ok tree

theorem plain_readTree (options : Options) (text : List Char) :
    Plain (readTree options text).result := by
  unfold readTree
  split
  · exact .ok _
  · split
    · exact plain_readYaml text
    · simp only [Reading.result_bind]
      exact (Plain.ok ()).bind fun _ => (plain_readYaml _).bind fun _ => .ok _

end Fixup

namespace Document

/-- The steps to a document, without the events noted on the way. -/
theorem result_ofText (source : Source) (text : List Char) :
    (ofText source text).result = (do
      Header.checkRoot text
      let tree ← (Fixup.readTree source.context.options text).result
      if source.context.includesAvailable then (ofTree source tree).result
      else do
        ensureNoIncludes tree
        (ofTree source tree).result) := by
  -- the events around the document leave its result as it is
  have hnoted : ∀ tree, (do
      Reading.note (.documentStarted source.context.file)
      let document ← ofTree source tree
      Reading.note <| .documentRead document.title document.resourcesDepthFirst.length
        document.uses.elements.length
      return document : Reading Document).result = (ofTree source tree).result := by
    intro tree
    simp only [Reading.result_bind, Reading.result_note, Reading.result_pure]
    cases (ofTree source tree).result <;> rfl
  unfold ofText
  simp only [Reading.result_bind, Reading.result_monadLift]
  congr 1
  funext _
  congr 1
  funext tree
  split
  · exact hnoted tree
  · rw [Reading.result_bind, hnoted]
    rfl

variable {source : Source} {text : List Char} {tree : Tree} {error : Error}

/-- A document that is read from a text is read from its tree. -/
theorem exists_tree_of_ofText {document : Document} (h : (ofText source text).result = .ok document) :
    ∃ tree, (Fixup.readTree source.context.options text).result = .ok tree ∧
      (ofTree source tree).result = .ok document := by
  rw [result_ofText] at h
  obtain ⟨_, -, h⟩ := exists_of_bind_eq_ok h
  obtain ⟨tree, htree, h⟩ := exists_of_bind_eq_ok h
  split at h
  · exact ⟨tree, htree, h⟩
  · obtain ⟨_, -, h⟩ := exists_of_bind_eq_ok h
    exact ⟨tree, htree, h⟩

theorem result_ofText_of_header (hheader : Header.checkRoot text = .error error) :
    (ofText source text).result = .error error := by
  rw [result_ofText, hheader]
  rfl

theorem result_ofText_of_refused (hheader : Header.checkRoot text = .ok ())
    (htree : (Fixup.readTree source.context.options text).result = .error error) :
    (ofText source text).result = .error error := by
  rw [result_ofText, hheader, htree]
  rfl

theorem result_ofText_of_directive (source : Source) (hfile : source.context.file = none)
    (hheader : Header.checkRoot text = .ok ())
    (htree : (Fixup.readTree source.context.options text).result = .ok tree)
    {target : String} (htarget : firstInclude? tree = some target) :
    (ofText source text).result = .error (.includesUnavailable target) := by
  have hensure : ensureNoIncludes tree = .error (.includesUnavailable target) := by
    rw [ensureNoIncludes, htarget]
  rw [result_ofText, hheader, htree, FileContext.includesAvailable, hfile]
  change (ensureNoIncludes tree >>= fun _ => (ofTree source tree).result) = _
  rw [hensure]
  rfl

theorem result_ofText_of_tree (source : Source) (hheader : Header.checkRoot text = .ok ())
    (htree : (Fixup.readTree source.context.options text).result = .ok tree)
    (hfree : IncludeFree tree) : (ofText source text).result = (ofTree source tree).result := by
  have hensure : ensureNoIncludes tree = .ok () := by
    rw [ensureNoIncludes, hfree]
  rw [result_ofText, hheader, htree]
  change (if source.context.includesAvailable then (ofTree source tree).result
    else ensureNoIncludes tree >>= fun _ => (ofTree source tree).result) = _
  rw [hensure]
  exact ite_self _

/-- A text in memory gives the error that includes are unavailable, outside all named declarations,
exactly when its header is accepted, it has a tree, and the tree holds an include directive. The
error tells the target of the first directive in document order. -/
theorem ofString_eq_includesUnavailable_iff {text : String} {options : Options} {target : String} :
    (ofString text options).result = .error (.includesUnavailable target) ↔
      Header.checkRoot text.toList = .ok () ∧
        ∃ tree, (Fixup.readTree options text.toList).result = .ok tree ∧
          IsFirstDirective tree target := by
  constructor
  · intro h
    unfold ofString at h
    cases hheader : Header.checkRoot text.toList with
    | error error =>
      rw [result_ofText_of_header hheader] at h
      obtain rfl := Except.error.inj h
      exact absurd hheader (Header.plain_checkRoot _ target)
    | ok =>
      cases htree : (Fixup.readTree options text.toList).result with
      | error error =>
        rw [result_ofText_of_refused hheader htree] at h
        obtain rfl := Except.error.inj h
        exact absurd htree (Fixup.plain_readTree _ _ target)
      | ok tree =>
        refine ⟨rfl, tree, rfl, ?_⟩
        cases hfound : firstInclude? tree with
        | none =>
          -- no reader of nodes gives the error unwrapped on a tree without directives
          rw [result_ofText_of_tree _ hheader htree hfound] at h
          have hagrees : Agrees (ofTree ⟨.empty, .detached options⟩ tree).result
              (ofTree ⟨.empty, .detached options⟩ tree).result := agrees_ofTree rfl hfound
          exact absurd h (hagrees.plain target)
        | some found =>
          rw [result_ofText_of_directive _ rfl hheader htree hfound] at h
          obtain rfl := Error.includesUnavailable.inj (Except.error.inj h)
          exact isFirstDirective_of_firstInclude? hfound
  · rintro ⟨hheader, tree, htree, hfirst⟩
    exact result_ofText_of_directive _ rfl hheader htree (firstInclude?_eq_some_iff.2 hfirst)

/-- The file that holds a text gives what the text gives in memory, unless the text needs a file to
include from. -/
theorem ofFile_eq_ofString {text : String} {options : Options} {files : FileSystem} {path : Path}
    (hfile : files.find? path = some (.file (some text)))
    (hneeds : ∀ error target, (ofString text options).result = .error error →
      error.rootCause ≠ .includesUnavailable target) :
    (ofFile files path options).result = (ofString text options).result := by
  have hload : files.load path = .ok text := by
    rw [FileSystem.load, hfile]
  unfold ofString at hneeds ⊢
  unfold ofFile
  rw [Reading.result_bind, Reading.result_monadLift, hload]
  change (ofText ⟨files, .forFile files path options⟩ text.toList).result = _
  cases hheader : Header.checkRoot text.toList with
  | error error => rw [result_ofText_of_header hheader, result_ofText_of_header hheader]
  | ok =>
    cases htree : (Fixup.readTree options text.toList).result with
    | error error =>
      rw [result_ofText_of_refused hheader htree, result_ofText_of_refused hheader htree]
    | ok tree =>
      cases hfound : firstInclude? tree with
      | none =>
        have halone := result_ofText_of_tree (⟨.empty, .detached options⟩) hheader htree
          hfound
        have hother := result_ofText_of_tree (⟨files, .forFile files path options⟩)
          hheader htree hfound
        rw [halone] at hneeds ⊢
        rw [hother]
        exact (agrees_ofTree rfl hfound).eq_of_rootCause hneeds
      | some found =>
        have hbarred := result_ofText_of_directive (⟨.empty, .detached options⟩) rfl
          hheader htree hfound
        exact absurd rfl (hneeds _ found hbarred)

/-- A tree with a title alone is a document in every source. -/
theorem result_ofTree_of_title (source : Source) :
    (ofTree source (.mapping [(.string "title", .string "Users")])).result =
      .ok { title := "Users" } := by
  have htitle : Entries.field? [(.string "title", .string "Users")] "title" =
      some (.string "Users") := by decide
  have habsent : ∀ key, key ≠ "title" →
      Entries.field? [(.string "title", .string "Users")] key = none := by
    intro key hkey
    simp [Entries.field?, Entries.get?, hkey.symm]
  have hinclude : isInclude (.string "Users") = false := by decide
  have hpath : Resource.pathOf? (.string "title") = none := by decide
  have hresources : Resource.readEntries source [(.string "title", .string "Users")] = pure [] := by
    rw [Resource.readEntries, hpath]
    exact Resource.readEntries.eq_1 source
  have huses : Library.readUses source [(.string "title", .string "Users")] = pure none := by
    rw [Library.readUses]
    split
    · rfl
    · next h =>
      rw [habsent _ (by decide)] at h
      cases h
  simp [ofTree, ofEntries, Field.text, htitle, habsent, hinclude, hresources, huses, Field.string,
    Field.of, scalarText?, Parameter.readOfUri, readBlock, Protocol.readAll, Field.strings,
    Chapter.readAll, Declarations.readOfDocument, TypeDeclaration.readAll, TraitDefinition.readAll,
    ResourceType.readAll, AnnotationType.readAll, SecurityScheme.readAll, readFragments,
    readSecuredBy, readUsages, Reading.lift]
  rfl

/-- A tree with a title and types alone has the result of its types. -/
theorem result_ofTree_of_types (source : Source) {block : Tree} (hnull : block.isNull = false) :
    (ofTree source (.mapping [(.string "title", .string "Users"), (.string "types", block)])).result =
      (fun types => ({ title := "Users", declarations := { types } } : Document)) <$>
        (TypeDeclaration.readAll source (some block)).result := by
  have htitle : Entries.field? [(.string "title", .string "Users"), (.string "types", block)]
      "title" = some (.string "Users") := rfl
  have htypes : Entries.field? [(.string "title", .string "Users"), (.string "types", block)]
      "types" = some block := by
    simp [Entries.field?, Entries.get?, hnull]
  have habsent : ∀ key, key ≠ "title" → key ≠ "types" →
      Entries.field? [(.string "title", .string "Users"), (.string "types", block)] key = none := by
    intro key htitle htypes
    simp [Entries.field?, Entries.get?, htitle.symm, htypes.symm]
  have hinclude : isInclude (.string "Users") = false := by decide
  have hresources : Resource.readEntries source
      [(.string "title", .string "Users"), (.string "types", block)] = pure [] := by
    have htitle : Resource.pathOf? (.string "title") = none := by decide
    have htypes : Resource.pathOf? (.string "types") = none := by decide
    simp only [Resource.readEntries, htitle, htypes]
  have huses : Library.readUses source
      [(.string "title", .string "Users"), (.string "types", block)] = pure none := by
    rw [Library.readUses]
    split
    · rfl
    · next h =>
      rw [habsent _ (by decide) (by decide)] at h
      cases h
  simp [ofTree, ofEntries, Field.text, htitle, htypes, habsent, hinclude, hresources, huses,
    Field.string, Field.of, scalarText?, Parameter.readOfUri, readBlock, Protocol.readAll,
    Field.strings, Chapter.readAll, Declarations.readOfDocument, TraitDefinition.readAll,
    ResourceType.readAll, AnnotationType.readAll, SecurityScheme.readAll, readFragments,
    readSecuredBy, readUsages, Reading.lift]
  cases (TypeDeclaration.readAll source (some block)).result <;> rfl

theorem result_ofString_of_title :
    (ofString "#%RAML 1.0\ntitle: Users\n").result = .ok { title := "Users" } := by
  have hheader : Header.checkRoot "#%RAML 1.0\ntitle: Users\n".toList = .ok () := by cbv
  have htree : (Fixup.readTree {} "#%RAML 1.0\ntitle: Users\n".toList).result =
      .ok (.mapping [(.string "title", .string "Users")]) := by cbv
  have hfree : IncludeFree (.mapping [(.string "title", .string "Users")]) := by
    unfold IncludeFree
    decide
  have hresult := result_ofText_of_tree (⟨.empty, .detached {}⟩) hheader htree hfree
  exact hresult.trans (result_ofTree_of_title _)

/-- A document with a title, in a file and in memory. -/
theorem ofFile_eq_ofString_title :
    (FileSystem.mk [(["api.raml"], .file (some "#%RAML 1.0\ntitle: Users\n"))]).find? ⟨"/api.raml"⟩ =
        some (.file (some "#%RAML 1.0\ntitle: Users\n")) ∧
      (ofFile ⟨[(["api.raml"], .file (some "#%RAML 1.0\ntitle: Users\n"))]⟩ ⟨"/api.raml"⟩).result =
        (ofString "#%RAML 1.0\ntitle: Users\n").result := by
  have hfile : (FileSystem.mk [(["api.raml"], .file (some "#%RAML 1.0\ntitle: Users\n"))]).find?
      ⟨"/api.raml"⟩ = some (.file (some "#%RAML 1.0\ntitle: Users\n")) := by cbv
  refine ⟨hfile, ofFile_eq_ofString hfile fun error target h => ?_⟩
  rw [result_ofString_of_title] at h
  cases h

end Document

end RamlDoc
