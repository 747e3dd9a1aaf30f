import Mathlib
import RamlDoc.Proofs.EntryPoints
import RamlDoc.Proofs.ImportGraph

/-!
# Libraries unfold import graphs

A document that only uses libraries, which again only use libraries, is read by following its import
graph. What reading the imports of a file gives is known once it is known for the files that can be
entered from it (`Library.explored_readEntries_step`); a file can be entered only while the chain
has room, so it is known for all files (`Library.explored_readEntries`). For the document itself
this says that the libraries are the unfolding of the import graph to a tree, or that the error
tells of the first import path at fault (`Document.ofFile_unfolds`).
-/

namespace RamlDoc

open Yaml

/-! ## Bodies that only use libraries -/

/-- A mapping has no other keys than some. -/
def OnlyKeys (keys : List String) (entries : Entries) : Prop :=
  ∀ entry ∈ entries, ∃ key ∈ keys, entry.1 = .string key

theorem OnlyKeys.field?_eq_none {keys : List String} {entries : Entries}
    (h : OnlyKeys keys entries) (key : String) (hkey : key ∉ keys) :
    Entries.field? entries key = none := by
  have hget : Entries.get? entries key = none := by
    refine Option.map_eq_none_iff.2 (List.find?_eq_none.2 fun entry hentry hfound => ?_)
    obtain ⟨other, hother, hkeyed⟩ := h entry hentry
    obtain rfl := Tree.string.inj (hkeyed.symm.trans (of_decide_eq_true hfound))
    exact hkey hother
  rw [Entries.field?, hget, Option.filter_none]

namespace Field

variable {entries : Entries} {key : String}

theorem text_of_absent (h : Entries.field? entries key = none) (source : Source) :
    text entries key source = pure none := by
  rw [text, h]

theorem string_of_absent (h : Entries.field? entries key = none) :
    string entries key = .ok none := by
  rw [string, of, h]

theorem strings_of_absent (h : Entries.field? entries key = none) :
    strings entries key = .ok none := by
  rw [strings, h]

end Field

/-- A library without other fields than `uses` consists of the libraries it uses. -/
theorem Library.result_ofEntries (source : Source) (identifier : String) {entries : Entries}
    (h : OnlyKeys ["uses"] entries) (used : Reading (Block Library)) :
    (ofEntries source identifier entries used).result =
      (fun uses => { identifier, uses }) <$> used.result := by
  have hdeclarations : Declarations.readOfLibrary source entries = pure {} := by
    unfold Declarations.readOfLibrary
    rw [h.field?_eq_none "types" (by decide),
      h.field?_eq_none "resourceTypes" (by decide),
      h.field?_eq_none "traits" (by decide),
      h.field?_eq_none "securitySchemes" (by decide),
      h.field?_eq_none "annotationTypes" (by decide)]
    rfl
  unfold ofEntries
  rw [Field.text_of_absent (h.field?_eq_none "usage" (by decide)), hdeclarations]
  exact Reading.result_map _ used

theorem Resource.readEntries_of_onlyKeys (source : Source) {keys : List String} {entries : Entries}
    (h : OnlyKeys keys entries) (hkeys : ∀ key ∈ keys, pathOf? (.string key) = none) :
    readEntries source entries = pure [] := by
  induction entries with
  | nil => exact readEntries.eq_1 source
  | cons entry entries ih =>
    obtain ⟨key, hkey, hentry⟩ := h entry List.mem_cons_self
    obtain ⟨_, value⟩ := entry
    obtain rfl := hentry
    rw [readEntries, hkeys key hkey]
    exact ih fun entry hentry => h entry (List.mem_cons_of_mem _ hentry)

theorem annotationsOf_of_onlyKeys {keys : List String} {entries : Entries}
    (h : OnlyKeys keys entries) (hkeys : ∀ key ∈ keys, annotationName? key = none) :
    annotationsOf entries = none := by
  have hnone : entries.filterMap annotationOf? = [] := by
    refine List.filterMap_eq_nil_iff.2 fun entry hentry => ?_
    obtain ⟨key, hkey, hentry⟩ := h entry hentry
    rw [annotationOf?, hentry]
    exact Option.map_eq_none_iff.2 (hkeys key hkey)
  rw [annotationsOf, hnone]
  rfl

/-- A document without other fields than a title and `uses` consists of them. -/
theorem Document.result_ofEntries (source : Source) {entries : Entries}
    (h : OnlyKeys ["title", "uses"] entries) {title : String}
    (htitle : Field.text entries "title" source = pure (some title)) :
    (ofEntries source entries).result =
      (fun uses => { title, uses }) <$> (Library.readUses source entries).result := by
  have hdeclarations : Declarations.readOfDocument source entries = pure {} := by
    unfold Declarations.readOfDocument
    rw [h.field?_eq_none "types" (by decide),
      h.field?_eq_none "resourceTypes" (by decide),
      h.field?_eq_none "traits" (by decide),
      h.field?_eq_none "securitySchemes" (by decide),
      h.field?_eq_none "annotationTypes" (by decide)]
    rfl
  have hresources := Resource.readEntries_of_onlyKeys source h (by decide)
  have hannotations := annotationsOf_of_onlyKeys h (by decide)
  have hprotocols : Protocol.readAll entries = .ok none := by
    rw [Protocol.readAll, Field.strings_of_absent (h.field?_eq_none "protocols" (by decide))]
    rfl
  have hchapters : Chapter.readAll source entries = pure none := by
    rw [Chapter.readAll, h.field?_eq_none "documentation" (by decide)]
  have hparameters : Parameter.readOfUri source "baseUriParameters" entries = pure none := by
    rw [Parameter.readOfUri, h.field?_eq_none "baseUriParameters" (by decide)]
    rfl
  have hsecured : readSecuredBy entries = .ok none := by
    rw [readSecuredBy, h.field?_eq_none "securedBy" (by decide)]
    rfl
  unfold ofEntries
  rw [htitle, Field.text_of_absent (h.field?_eq_none "description" (by decide)),
    Field.string_of_absent (h.field?_eq_none "version" (by decide)),
    Field.string_of_absent (h.field?_eq_none "baseUri" (by decide)),
    Field.strings_of_absent (h.field?_eq_none "mediaType" (by decide)),
    hparameters, hprotocols, hchapters, hdeclarations, hsecured, hresources, hannotations]
  exact Reading.result_map _ (Library.readUses source entries)

/-- What stands under `uses`, if anything does, is a mapping from names to targets. -/
def UsesImports (entries : Entries) : Prop :=
  ∀ tree, Entries.field? entries "uses" = some tree →
    ∃ used, tree = .mapping used ∧ ∀ entry ∈ used, (Import.ofEntry? entry).isSome

/-- The body of a library is empty, or it only uses libraries. -/
def IsImporting (tree : Tree) : Prop :=
  tree = .null ∨
    ∃ entries, tree = .mapping entries ∧ OnlyKeys ["uses"] entries ∧ UsesImports entries

theorem UsesImports.isSome_of_mem {entries : Entries} (h : UsesImports entries)
    {entry : Tree × Tree} (hentry : entry ∈ usedEntries (.mapping entries)) :
    (Import.ofEntry? entry).isSome := by
  unfold usedEntries at hentry
  cases htree : Entries.field? entries "uses" with
  | none => simp [htree] at hentry
  | some tree =>
    obtain ⟨used, rfl, hused⟩ := h tree htree
    exact hused entry (by simpa [htree] using hentry)

theorem IsImporting.isSome_of_mem {tree : Tree} (h : IsImporting tree) {entry : Tree × Tree}
    (hentry : entry ∈ usedEntries tree) : (Import.ofEntry? entry).isSome := by
  obtain rfl | ⟨entries, rfl, -, h⟩ := h
  · cases hentry
  · exact h.isSome_of_mem hentry

namespace Library

/-- The libraries under `uses` are read entry by entry. -/
theorem result_readUses (source : Source) {entries : Entries} (h : UsesImports entries) :
    (readUses source entries).result =
      Block.ofList <$> (readEntries source (usedEntries (.mapping entries))).result := by
  rw [readUses]
  split
  next htree =>
    have hused : usedEntries (.mapping entries) = [] := by
      rw [usedEntries, htree]
    rw [hused, readEntries]
    rfl
  next tree htree =>
    obtain ⟨used, rfl, -⟩ := h tree htree
    have hused : usedEntries (.mapping entries) = used := by
      rw [usedEntries, htree]
    rw [Source.openBlock_of_inline rfl, hused, pure_bind]
    change (readContent source (.mapping used)).result = _
    rw [readContent, Reading.result_map]

/-- A library that only uses libraries consists of them. -/
theorem result_readInPlace (source : Source) (identifier : String) {tree : Tree}
    (h : IsImporting tree) :
    (readInPlace source identifier tree).result =
      (fun libraries => { identifier, uses := Block.ofList libraries }) <$>
        (readEntries source (usedEntries tree)).result := by
  obtain rfl | ⟨entries, rfl, honly, himports⟩ := h
  · have hused : usedEntries .null = [] := rfl
    rw [readInPlace, result_ofEntries source identifier (fun _ h => by cases h), hused, readEntries]
    rfl
  · rw [readInPlace, result_ofEntries source identifier honly, result_readUses source himports]
    cases (readEntries source (usedEntries (.mapping entries))).result <;> rfl

end Library

/-! ## Files that import libraries -/

namespace FileSystem

variable (files : FileSystem) (options : Options)

/-- A file holds a library that does nothing but use libraries. -/
def HoldsLibrary (location : Location) : Prop :=
  ∃ text tree, files.entry? location = some (.file (some text)) ∧
    (∀ path, Header.checkFragment text.toList path .library = .ok ()) ∧
    (Fixup.readTree options text.toList).result = .ok tree ∧ IsImporting tree

/-- A file imports another. -/
def Imports (location next : Location) : Prop :=
  ∃ used ∈ files.importsAt options location, files.fromFile? location used.target = some next

/-- Every import below a root leads to a file that holds a library, or back to the root. -/
structure ImportsLead (root : Location) : Prop where
  found : ∀ location, Relation.ReflTransGen (files.Imports options) root location →
    ∀ used ∈ files.importsAt options location, (files.fromFile? location used.target).isSome
  library : ∀ location, Relation.ReflTransGen (files.Imports options) root location →
    location ≠ root → files.HoldsLibrary options location

end FileSystem

section Importing

variable {files : FileSystem} {options : Options} {root location next : Location} {path : Path}
  {visited : List Location}

/-- A file is being read below a root, with some files on the chain. -/
structure StandsAt (files : FileSystem) (options : Options) (root : Location)
    (visited : List Location) (path : Path) (location : Location) : Prop where
  root_mem : root ∈ visited
  fits : Fits options.maxIncludeDepth visited
  reached : Relation.ReflTransGen (files.Imports options) root location
  locate_eq : files.locate? path = some location
  not_directory : files.entry? location ≠ some .directory

namespace StandsAt

variable {target : String} {used : Import}

/-- The source that a file is read in. -/
def source (files : FileSystem) (options : Options) (visited : List Location) (path : Path) :
    Source := ⟨files, ⟨some path, visited, options⟩⟩

/-- The path that a target leads to. -/
def included (path : Path) (target : String) : Path := (path.parent?.getD ⟨""⟩).join target

theorem locate?_included (hat : StandsAt files options root visited path location)
    (hnext : files.fromFile? location target = some next) :
    files.locate? (included path target) = some next :=
  (FileSystem.locate?_join hat.locate_eq hat.not_directory target).trans hnext

theorem identity_included (hat : StandsAt files options root visited path location)
    (hnext : files.fromFile? location target = some next) :
    files.identity (included path target) = next := by
  rw [FileSystem.identity, hat.locate?_included hnext, Option.getD_some]

theorem visited_ne_nil (hat : StandsAt files options root visited path location) :
    visited ≠ [] := List.ne_nil_of_mem hat.root_mem

/-- A file that is on the chain, or behind too many others, is refused. -/
theorem resolveTarget_of_faulty (hat : StandsAt files options root visited path location)
    (hnext : files.fromFile? location used.target = some next)
    (hfaulty : Faulty options.maxIncludeDepth visited [⟨used, next⟩])
    (fragment : Option FragmentKind) :
    ((source files options visited path).resolveTarget used.target fragment).result =
      .error (faultOf options.maxIncludeDepth visited path [⟨used, next⟩]) := by
  have hidentity := hat.identity_included hnext
  have hnodup : (([⟨used, next⟩] : List ImportStep).map ImportStep.location ++ visited).Nodup ↔
      next ∉ visited := by
    rw [List.map_singleton, List.singleton_append, List.nodup_cons, and_iff_left hat.fits.1]
  by_cases hmem : next ∈ visited
  · rw [faultOf, if_neg (by rwa [hnodup, not_not])]
    rw [← hidentity] at hmem
    have henter := FileContext.enter_of_mem files (source files options visited path).context hmem
    rw [Source.resolveTarget_of_refused rfl henter]
    rfl
  · rw [faultOf, if_pos (hnodup.2 hmem)]
    have hdeep : options.maxIncludeDepth ≤ visited.length - 1 :=
      Nat.le_sub_one_of_lt (((faulty_singleton_iff hat.fits _).1 hfaulty).resolve_left hmem)
    rw [← hidentity] at hmem
    have henter := FileContext.enter_of_deep files (source files options visited path).context
      hmem hdeep
    rw [Source.resolveTarget_of_refused rfl henter]
    rfl

/-- Another file that holds a library is entered. -/
theorem resolveTarget_of_fits (hat : StandsAt files options root visited path location)
    (hnext : files.fromFile? location target = some next) (hfresh : next ∉ visited)
    (hfits : visited.length < options.maxIncludeDepth + 1)
    (hlibrary : files.HoldsLibrary options next) :
    ∃ included, ((source files options visited path).resolveTarget target (some .library)).result =
        .ok included ∧
      included.source = source files options (next :: visited) (StandsAt.included path target) ∧
      IsImporting included.tree ∧ importsOf included.tree = files.importsAt options next := by
  obtain ⟨text, tree, hentry, hheader, htree, himporting⟩ := hlibrary
  have hidentity := hat.identity_included hnext
  have hlength := List.length_pos_iff.2 hat.visited_ne_nil
  have hload : files.load (StandsAt.included path target) = .ok text := by
    rw [FileSystem.load_eq_ok_iff, FileSystem.find?, hat.locate?_included hnext]
    exact hentry
  have henter : (source files options visited path).context.enter files
      (StandsAt.included path target) =
        .ok (source files options (next :: visited) (StandsAt.included path target)).context := by
    refine FileContext.enter_eq_ok.2 ⟨?_, ?_, ?_⟩
    · rw [hidentity]
      exact hfresh
    · change visited.length - 1 < options.maxIncludeDepth
      omega
    · rw [hidentity]
      rfl
  refine ⟨⟨source files options (next :: visited) (StandsAt.included path target), tree,
    FileContext.remaining_lt_of_enter henter⟩, ?_, rfl, himporting, ?_⟩
  · exact Source.resolveTarget_eq_ok_iff.2
      ⟨StandsAt.included path target, text, rfl, henter, rfl, hload, hheader _, htree⟩
  · rw [FileSystem.importsAt, hentry]
    dsimp only
    rw [htree]

/-- The file that is entered stands below the same root. -/
theorem enter (hat : StandsAt files options root visited path location)
    (hused : used ∈ files.importsAt options location)
    (hnext : files.fromFile? location used.target = some next) (hfresh : next ∉ visited)
    (hfits : visited.length < options.maxIncludeDepth + 1)
    (hlibrary : files.HoldsLibrary options next) :
    StandsAt files options root (next :: visited) (included path used.target) next where
  root_mem := List.mem_cons_of_mem _ hat.root_mem
  fits := ⟨List.nodup_cons.2 ⟨hfresh, hat.fits.1⟩, hfits⟩
  reached := hat.reached.tail ⟨used, hused, hnext⟩
  locate_eq := hat.locate?_included hnext
  not_directory := by
    obtain ⟨text, tree, hentry, -⟩ := hlibrary
    rw [hentry]
    exact fun h => by cases h

end StandsAt

namespace Library

theorem result_read {source : Source} {identifier target : String} {tree : Tree}
    (h : pathOf? tree = some target) :
    (read source identifier tree).result = (do
      let included ← (source.resolveTarget target (some .library)).result
      (readInPlace included.source identifier included.tree).result) := by
  rw [read]
  split
  next other hother =>
    obtain rfl := Option.some.inj (h.symm.trans hother)
    exact Reading.result_bind _ _
  next hnone =>
    rw [h] at hnone
    cases hnone

/-- An entry under `uses` is read, then the others. -/
theorem result_readEntries_cons (source : Source) {key value : Tree} {used : Import}
    (hused : Import.ofEntry? (key, value) = some used) (entries : Entries) :
    pathOf? value = some used.target ∧
      (readEntries source ((key, value) :: entries)).result = (do
        let library ← (read source used.name value).result.mapError (.failed .library used.name)
        (fun others => library :: others) <$> (readEntries source entries).result) := by
  obtain ⟨name, hname, hused⟩ := Option.bind_eq_some_iff.1 hused
  obtain ⟨target, htarget, rfl⟩ := Option.map_eq_some_iff.1 hused
  have hkey : keyText "Library" key = .ok name := by
    rw [keyText, hname]
  refine ⟨htarget, ?_⟩
  rw [readEntries, hkey, Reading.ok_bind]
  simp only [Reading.result_bind, Reading.result_mapError, map_eq_pure_bind]
  rfl

/-- What reading the imports of a file gives, if this is known of all files that can be entered
from it. -/
theorem explored_readEntries_step (hlead : files.ImportsLead options root)
    (hat : StandsAt files options root visited path location)
    (ih : ∀ {next : Location} {inner : Path} {tree : Tree},
      StandsAt files options root (next :: visited) inner next →
      IsImporting tree → importsOf tree = files.importsAt options next →
      Explored files options options.maxIncludeDepth (next :: visited) inner next
        (files.importsAt options next)
        (readEntries (StandsAt.source files options (next :: visited) inner)
          (usedEntries tree)).result)
    {entries : Entries} (hentries : ∀ entry ∈ entries, (Import.ofEntry? entry).isSome)
    (hmem : ∀ used ∈ entries.filterMap Import.ofEntry?, used ∈ files.importsAt options location) :
    Explored files options options.maxIncludeDepth visited path location
      (entries.filterMap Import.ofEntry?)
      (readEntries (StandsAt.source files options visited path) entries).result := by
  induction entries with
  | nil =>
    rw [readEntries]
    exact .nil hat.fits
  | cons entry entries ihEntries =>
    obtain ⟨key, value⟩ := entry
    obtain ⟨hentry, hentries⟩ := List.forall_mem_cons.1 hentries
    obtain ⟨used, hused⟩ := Option.isSome_iff_exists.1 hentry
    rw [List.filterMap_cons_some hused] at hmem ⊢
    obtain ⟨husedMem, hmem⟩ := List.forall_mem_cons.1 hmem
    have hfound := hlead.found location hat.reached used husedMem
    obtain ⟨next, hnext⟩ := Option.isSome_iff_exists.1 hfound
    obtain ⟨htarget, hresult⟩ :=
      result_readEntries_cons (StandsAt.source files options visited path) hused entries
    rw [hresult, result_read htarget]
    -- a file that is not refused is entered, and what it imports is read before the other entries
    by_cases hfaulty : Faulty options.maxIncludeDepth visited [⟨used, next⟩]
    · rw [hat.resolveTarget_of_faulty hnext hfaulty]
      exact .cons_refused hat.fits hnext hfaulty
    · rw [faulty_singleton_iff hat.fits, not_or, Nat.not_le] at hfaulty
      obtain ⟨hfresh, hfits⟩ := hfaulty
      have hother : next ≠ root := fun h => hfresh (h ▸ hat.root_mem)
      have hlibrary := hlead.library next (hat.reached.tail ⟨used, husedMem, hnext⟩) hother
      obtain ⟨included, hincluded, hsource, himporting, himports⟩ :=
        hat.resolveTarget_of_fits hnext hfresh hfits hlibrary
      have hinner := ih (hat.enter husedMem hnext hfresh hfits hlibrary) himporting himports
      have hrest := ihEntries hentries hmem
      rw [hincluded]
      change Explored _ _ _ _ _ _ _ (do
        let library ← (readInPlace included.source used.name included.tree).result.mapError
          (.failed .library used.name)
        (fun others => library :: others) <$>
          (readEntries (StandsAt.source files options visited path) entries).result)
      rw [result_readInPlace _ _ himporting, hsource]
      generalize (readEntries
        (StandsAt.source files options (next :: visited) (StandsAt.included path used.target))
        (usedEntries included.tree)).result = inner at hinner ⊢
      cases inner with
      | error error => exact .cons_failed hat.fits hnext hinner
      | ok libraries => exact .cons_ok hat.fits hnext hinner hrest

/-- Reading the imports of a file gives what the import graph says. -/
theorem explored_readEntries (hlead : files.ImportsLead options root) {visited : List Location}
    {path : Path} {location : Location} (hat : StandsAt files options root visited path location)
    {tree : Tree} (hentries : ∀ entry ∈ usedEntries tree, (Import.ofEntry? entry).isSome)
    (himports : importsOf tree = files.importsAt options location) :
    Explored files options options.maxIncludeDepth visited path location
      (files.importsAt options location)
      (readEntries (StandsAt.source files options visited path) (usedEntries tree)).result := by
  -- by induction on the room that the limit leaves on the chain
  rw [← himports]
  refine explored_readEntries_step hlead hat (fun hinner htree hnext => ?_) hentries ?_
  · exact explored_readEntries hlead hinner (fun entry => htree.isSome_of_mem) hnext
  · intro used hused
    rw [← himports]
    exact hused
termination_by options.maxIncludeDepth + 1 - visited.length
decreasing_by
  have hlength := hinner.fits.2
  rw [List.length_cons] at hlength ⊢
  omega

end Library

end Importing

/-- A file holds a root document that has a title and uses libraries. -/
def FileSystem.HoldsRoot (files : FileSystem) (options : Options) (location : Location)
    (title : String) : Prop :=
  ∃ text entries, files.entry? location = some (.file (some text)) ∧
    Header.checkRoot text.toList = .ok () ∧
    (Fixup.readTree options text.toList).result = .ok (.mapping entries) ∧
    OnlyKeys ["title", "uses"] entries ∧ UsesImports entries ∧
    ∃ value, Entries.field? entries "title" = some value ∧ isInclude value = false ∧
      scalarText? value = some title

/-- An import path visits no file twice, the root counted, and is not too long. -/
def IsSound (limit : Nat) (root : Location) (steps : List ImportStep) : Prop :=
  (root :: steps.map ImportStep.location).Nodup ∧ steps.length ≤ limit

theorem faulty_root_iff {limit : Nat} {root : Location} {steps : List ImportStep} :
    Faulty limit [root] steps ↔ ¬ IsSound limit root steps := by
  have hperm : (steps.map ImportStep.location ++ [root]).Nodup ↔
      (root :: steps.map ImportStep.location).Nodup :=
    (List.perm_append_singleton root _).nodup_iff
  rw [Faulty, IsSound, not_and_or, hperm, List.length_singleton, Nat.add_lt_add_iff_right,
    Nat.not_le]

namespace Document

variable {files : FileSystem} {options : Options} {path : Path} {root : Location} {title : String}

/-- A root document that only uses libraries consists of its title and the libraries. -/
theorem exists_entries_of_holdsRoot (hlocate : files.locate? path = some root)
    (hroot : files.HoldsRoot options root title) :
    ∃ tree, (∀ entry ∈ usedEntries tree, (Import.ofEntry? entry).isSome) ∧
      importsOf tree = files.importsAt options root ∧
      (ofFile files path options).result =
        (fun libraries => { title, uses := Block.ofList libraries }) <$>
          (Library.readEntries (StandsAt.source files options [root] path)
            (usedEntries tree)).result := by
  obtain ⟨text, entries, hentry, hheader, htree, honly, himports, htitle⟩ := hroot
  obtain ⟨value, hvalue, hinclude, hscalar⟩ := htitle
  refine ⟨.mapping entries, fun entry => himports.isSome_of_mem, ?_, ?_⟩
  · rw [FileSystem.importsAt, hentry]
    dsimp only
    rw [htree]
  · have hload : files.load path = .ok text := by
      rw [FileSystem.load_eq_ok_iff, FileSystem.find?, hlocate]
      exact hentry
    have hidentity : files.identity path = root := by
      rw [FileSystem.identity, hlocate, Option.getD_some]
    have hsource : (⟨files, .forFile files path options⟩ : Source) =
        StandsAt.source files options [root] path := by
      rw [StandsAt.source, FileContext.forFile, hidentity]
    have htitle : Field.text entries "title" (StandsAt.source files options [root] path) =
        pure (some title) := by
      rw [Field.text, hvalue]
      dsimp only
      rw [hinclude, if_neg Bool.false_ne_true, Field.string, Field.of, hvalue]
      dsimp only
      rw [hscalar]
      rfl
    rw [ofFile, hload, Reading.ok_bind, result_ofText, hheader, hsource]
    change ((Fixup.readTree options text.toList).result >>= fun tree => _) = _
    rw [htree]
    change (ofEntries (StandsAt.source files options [root] path) entries).result = _
    rw [result_ofEntries _ honly htitle, Library.result_readUses _ himports]
    cases (Library.readEntries (StandsAt.source files options [root] path)
      (usedEntries (.mapping entries))).result <;> rfl

/-- A document that only uses libraries, in files that only use libraries, is read exactly if no
path of imports visits a file twice or is too long. The libraries are then the unfolding of the
graph. Otherwise the error is that of the first path at fault, depth first in the order of
declaration: told with the names on the path, it is that a file includes itself where the path
visits a file twice, and that includes are nested too deeply where it is too long. -/
theorem ofFile_unfolds (hlocate : files.locate? path = some root)
    (hroot : files.HoldsRoot options root title) (hlead : files.ImportsLead options root) :
    ((∃ document, (ofFile files path options).result = .ok document) ↔
      ∀ positions steps,
        files.walk? options root (files.importsAt options root) positions = some steps →
          IsSound options.maxIncludeDepth root steps) ∧
    (∀ document, (ofFile files path options).result = .ok document →
      document = { title, uses := Block.ofList <|
        files.unfolding options options.maxIncludeDepth root (files.importsAt options root) }) ∧
    (∀ error, (ofFile files path options).result = .error error →
      ∃ positions steps,
        files.walk? options root (files.importsAt options root) positions = some steps ∧
        ¬ IsSound options.maxIncludeDepth root steps ∧
        (∀ earlier < positions, ∀ others,
          files.walk? options root (files.importsAt options root) earlier = some others →
            IsSound options.maxIncludeDepth root others) ∧
        error = toldWith steps (faultOf options.maxIncludeDepth [root] path steps)) := by
  obtain ⟨tree, hentries, himports, hresult⟩ := exists_entries_of_holdsRoot hlocate hroot
  obtain ⟨text, -, hentry, -⟩ := hroot
  have hat : StandsAt files options root [root] path root := {
    root_mem := List.mem_singleton_self _
    fits := ⟨List.nodup_singleton _, Nat.le_add_left _ _⟩
    reached := .refl
    locate_eq := hlocate
    not_directory := by
      rw [hentry]
      exact fun h => by cases h }
  have hexplored := Library.explored_readEntries hlead hat hentries himports
  rw [hresult]
  generalize (Library.readEntries (StandsAt.source files options [root] path)
    (usedEntries tree)).result = libraries at hexplored
  cases hexplored with
  | sound hsound hunfolds =>
    refine ⟨⟨fun _ positions steps hwalk => ?_, fun _ => ⟨_, rfl⟩⟩, ?_, ?_⟩
    · exact not_not.1 fun h => hsound positions steps hwalk (faulty_root_iff.2 h)
    · rintro _ ⟨rfl⟩
      rw [hunfolds options.maxIncludeDepth (by simp)]
    · intro error h
      cases h
  | faulty hwalk hfaulty hfirst =>
    refine ⟨⟨?_, fun h => absurd (h _ _ hwalk) (faulty_root_iff.1 hfaulty)⟩, ?_, ?_⟩
    · rintro ⟨document, h⟩
      cases h
    · intro document h
      cases h
    · rintro _ ⟨rfl⟩
      refine ⟨_, _, hwalk, faulty_root_iff.1 hfaulty, ?_, rfl⟩
      intro earlier hearlier others hothers
      exact not_not.1 fun h => hfirst earlier hearlier others hothers (faulty_root_iff.2 h)

/-- A document that uses one library under two names. -/
def sharedLibrary : FileSystem :=
  ⟨[(["api.raml"],
      .file (some "#%RAML 1.0\ntitle: Users\nuses:\n  a: lib.raml\n  b: ./lib.raml\n")),
    (["lib.raml"], .file (some "#%RAML 1.0 Library\n"))]⟩

theorem readTree_sharedLibrary :
    (Fixup.readTree {}
        "#%RAML 1.0\ntitle: Users\nuses:\n  a: lib.raml\n  b: ./lib.raml\n".toList).result =
      .ok (.mapping [(.string "title", .string "Users"),
        (.string "uses", .mapping [(.string "a", .string "lib.raml"),
          (.string "b", .string "./lib.raml")])]) := by cbv

theorem importsAt_sharedLibrary :
    sharedLibrary.importsAt {} ["api.raml"] = [⟨"a", "lib.raml"⟩, ⟨"b", "./lib.raml"⟩] ∧
      sharedLibrary.importsAt {} ["lib.raml"] = [] := by
  constructor
  · have hentry : sharedLibrary.entry? ["api.raml"] = some (.file (some
        "#%RAML 1.0\ntitle: Users\nuses:\n  a: lib.raml\n  b: ./lib.raml\n")) := rfl
    rw [FileSystem.importsAt, hentry]
    dsimp only
    rw [readTree_sharedLibrary]
    rfl
  · cbv

theorem fromFile?_sharedLibrary :
    sharedLibrary.fromFile? ["api.raml"] (Import.mk "a" "lib.raml").target = some ["lib.raml"] ∧
      sharedLibrary.fromFile? ["api.raml"] (Import.mk "b" "./lib.raml").target =
        some ["lib.raml"] := by
  constructor <;> rfl

theorem holdsRoot_sharedLibrary : sharedLibrary.HoldsRoot {} ["api.raml"] "Users" := by
  refine ⟨_, _, rfl, by cbv, readTree_sharedLibrary, ?_, ?_, .string "Users", by decide, by decide,
    rfl⟩
  · simp [OnlyKeys]
  · intro tree htree
    have hfield : Entries.field? [(.string "title", .string "Users"),
        (.string "uses", .mapping [(.string "a", .string "lib.raml"),
          (.string "b", .string "./lib.raml")])] "uses" =
        some (.mapping [(.string "a", .string "lib.raml"),
          (.string "b", .string "./lib.raml")]) := by decide
    exact ⟨_, Option.some.inj (htree.symm.trans hfield), by decide⟩

theorem importsLead_sharedLibrary : sharedLibrary.ImportsLead {} ["api.raml"] := by
  have hfrom : ∀ used ∈ sharedLibrary.importsAt {} ["api.raml"],
      sharedLibrary.fromFile? ["api.raml"] used.target = some ["lib.raml"] := by
    rw [importsAt_sharedLibrary.1, List.forall_mem_cons, List.forall_mem_singleton]
    exact fromFile?_sharedLibrary
  have hreach : ∀ location, Relation.ReflTransGen (sharedLibrary.Imports {}) ["api.raml"] location →
      location = ["api.raml"] ∨ location = ["lib.raml"] := by
    intro location hreach
    induction hreach with
    | refl => exact .inl rfl
    | tail _ hstep ih =>
      obtain ⟨used, hused, hnext⟩ := hstep
      obtain rfl | rfl := ih
      · exact .inr (Option.some.inj (hnext.symm.trans (hfrom used hused)))
      · rw [importsAt_sharedLibrary.2] at hused
        cases hused
  constructor
  · intro location hlocation used hused
    obtain rfl | rfl := hreach location hlocation
    · rw [hfrom used hused]
      rfl
    · rw [importsAt_sharedLibrary.2] at hused
      cases hused
  · intro location hlocation hother
    obtain rfl | rfl := hreach location hlocation
    · exact absurd rfl hother
    · exact ⟨_, .null, rfl, fun path => by cbv, by cbv, .inl rfl⟩

theorem isSound_sharedLibrary {positions : List Nat} {steps : List ImportStep}
    (h : sharedLibrary.walk? {} ["api.raml"] (sharedLibrary.importsAt {} ["api.raml"]) positions =
      some steps) : IsSound 64 ["api.raml"] steps := by
  -- the library imports nothing, so a path is empty or has one step
  have hinner : ∀ {rest inner}, sharedLibrary.walk? {} ["lib.raml"]
      (sharedLibrary.importsAt {} ["lib.raml"]) rest = some inner → inner = [] := by
    intro rest inner h
    rw [importsAt_sharedLibrary.2] at h
    cases rest with
    | nil => exact (Option.some.inj h).symm
    | cons => cases h
  have hstep : ∀ used, IsSound 64 ["api.raml"] [⟨used, ["lib.raml"]⟩] := by
    intro used
    have hdistinct : ([["api.raml"], ["lib.raml"]] : List Location).Nodup := by decide
    exact ⟨hdistinct, Nat.le_add_left 1 63⟩
  rw [importsAt_sharedLibrary.1] at h
  obtain ⟨rfl, rfl⟩ | ⟨rest, inner, rfl, rfl, hrest⟩ | ⟨position, rest, rfl, hrest⟩ :=
    walk?_cases fromFile?_sharedLibrary.1 h
  · exact ⟨by decide, by decide⟩
  · rw [hinner hrest]
    exact hstep _
  · obtain ⟨hnil, -⟩ | ⟨rest, inner, -, rfl, hlast⟩ | ⟨position, rest, -, hnone⟩ :=
      walk?_cases fromFile?_sharedLibrary.2 hrest
    · cases hnil
    · rw [hinner hlast]
      exact hstep _
    · cases hnone

theorem unfolding_sharedLibrary (depth : Nat) :
    sharedLibrary.unfolding {} (depth + 1) ["api.raml"]
        (sharedLibrary.importsAt {} ["api.raml"]) =
      [{ identifier := "a" }, { identifier := "b" }] := by
  have hnone : sharedLibrary.unfolding {} depth ["lib.raml"] [] = [] := by
    cases depth <;> rfl
  have hfrom : sharedLibrary.fromFile? ["api.raml"] "lib.raml" = some ["lib.raml"] ∧
      sharedLibrary.fromFile? ["api.raml"] "./lib.raml" = some ["lib.raml"] :=
    fromFile?_sharedLibrary
  simp only [importsAt_sharedLibrary, FileSystem.unfolding, List.filterMap_cons,
    List.filterMap_nil, hfrom, hnone, Option.map_some]
  rfl

/-- The library is there under both names. -/
theorem ofFile_sharedLibrary :
    (ofFile sharedLibrary ⟨"/api.raml"⟩ {}).result =
      .ok { title := "Users", uses := some [{ identifier := "a" }, { identifier := "b" }] } := by
  have hlocate : sharedLibrary.locate? ⟨"/api.raml"⟩ = some ["api.raml"] := rfl
  obtain ⟨hread, hunfolds, -⟩ :=
    ofFile_unfolds hlocate holdsRoot_sharedLibrary importsLead_sharedLibrary
  obtain ⟨document, hdocument⟩ := hread.2 fun _ _ => isSound_sharedLibrary
  have hlibraries : sharedLibrary.unfolding {} (Options.maxIncludeDepth {}) ["api.raml"]
      (sharedLibrary.importsAt {} ["api.raml"]) = _ := unfolding_sharedLibrary 63
  rw [hdocument, hunfolds document hdocument, hlibraries]
  rfl

end Document

end RamlDoc
