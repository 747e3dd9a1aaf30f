import Mathlib
import RamlDoc.Proofs.DocumentsAgree
import RamlDoc.Proofs.Entering
import RamlDoc.Read.Document

/-!
# How deeply includes nest

Readers go from a value to its parts, or into an included file. Each included file is one that is
not on the chain yet, so the number of files off the chain goes down, and the two ways together are
well-founded whatever the depth limit is (`Visit.wellFounded_leadsTo`). At most as many includes are
nested below the root document as there are files (`Nests.depth_le`), so a limit that large is never
reached: the limit acts as fuel, and documents are read alike for all limits from there on
(`Document.bounded_nesting`).
-/

namespace RamlDoc

open Yaml

namespace FileSystem

/-- Whether a file stands at a location. -/
def isFileAt (files : FileSystem) (location : Location) : Bool :=
  (files.entry? location).any (· ≠ .directory)

/-- The locations of the files, each once. -/
def fileLocations (files : FileSystem) : List Location :=
  (files.entries.map Prod.fst).dedup.filter files.isFileAt

/-- The number of files. -/
def fileCount (files : FileSystem) : Nat := files.fileLocations.length

variable {files : FileSystem}

/-- Each file counts once. -/
theorem nodup_fileLocations : files.fileLocations.Nodup := (List.nodup_dedup _).filter _

theorem mem_fileLocations_iff {location : Location} :
    location ∈ files.fileLocations ↔ files.isFileAt location := by
  unfold fileLocations
  rw [List.mem_filter, List.mem_dedup, and_iff_right_iff_imp]
  intro h
  obtain ⟨entry, hentry, hfile⟩ := (Option.any_eq_true _ _).1 h
  unfold entry? at hentry
  split at hentry
  · obtain rfl := Option.some.inj hentry
    simp at hfile
  · obtain ⟨before, after, hentries, -⟩ := List.lookup_eq_some_iff.1 hentry
    rw [hentries]
    simp

theorem isFileAt_identity_of_load {path : Path} {text : String} (h : files.load path = .ok text) :
    files.isFileAt (files.identity path) := by
  rw [isFileAt, entry?_identity_of_load h]
  rfl

/-- Distinct files are not more than there are. -/
theorem length_le_fileCount {locations : List Location} (hnodup : locations.Nodup)
    (hfiles : ∀ location ∈ locations, files.isFileAt location) :
    locations.length ≤ files.fileCount := by
  have hsubset : locations ⊆ files.fileLocations := fun location h =>
    mem_fileLocations_iff.2 (hfiles location h)
  exact (hnodup.subperm hsubset).length_le

/-- The files that are not on a chain. -/
def offChain (files : FileSystem) (chain : List Location) : List Location :=
  files.fileLocations.filter fun location => !chain.contains location

/-- A longer chain leaves fewer files off. -/
theorem length_offChain_cons_lt {location : Location} {chain : List Location}
    (hfile : files.isFileAt location) (hfresh : location ∉ chain) :
    (files.offChain (location :: chain)).length < (files.offChain chain).length := by
  have hoff : files.offChain (location :: chain) =
      (files.offChain chain).filter (· ≠ location) := by
    unfold offChain
    rw [List.filter_filter]
    congr 1
    funext other
    by_cases h : other = location <;> simp [h]
  have hmem : location ∈ files.offChain chain := by
    simpa [offChain, mem_fileLocations_iff] using And.intro hfile hfresh
  rw [hoff, List.length_filter_lt_length_iff_exists]
  exact ⟨location, hmem, by simp⟩

end FileSystem

/-- The options with a limit that is no higher than some number. -/
def Options.within (options : Options) (fuel : Nat) : Options :=
  { options with maxIncludeDepth := min options.maxIncludeDepth fuel }

/-! ## From value to value -/

/-- What a reader is at: a tree and where it comes from. -/
structure Visit where
  source : Source
  tree : Tree

namespace Visit

/-- Where a reader goes from a value: to one of its parts, or into an included file. -/
inductive LeadsTo : Visit → Visit → Prop
  | part {source : Source} {tree part : Tree} (h : part ∈ tree.parts) :
    LeadsTo ⟨source, tree⟩ ⟨source, part⟩
  | included {source : Source} {tree : Tree} {target : String} {fragment : Option FragmentKind}
    {included : Included source} (htarget : Library.pathOf? tree = some target)
    (h : (source.resolveTarget target fragment).result = .ok included) :
    LeadsTo ⟨source, tree⟩ ⟨included.source, included.tree⟩

/-- A file that was not on the chain is put on it. -/
def Enters (outer inner : Visit) : Prop :=
  inner.source.files = outer.source.files ∧ ∃ location,
    outer.source.files.isFileAt location ∧ location ∉ outer.source.context.chain ∧
      inner.source.context.chain = location :: outer.source.context.chain

variable {outer inner : Visit}

/-- The source stays and the tree is a part, or a file is entered. -/
theorem LeadsTo.cases (h : outer.LeadsTo inner) :
    (inner.source = outer.source ∧ inner.tree ∈ outer.tree.parts) ∨ outer.Enters inner := by
  cases h with
  | part h => exact .inl ⟨rfl, h⟩
  | included htarget h =>
    obtain ⟨path, text, htext, hfresh, hdepth, hsource⟩ := Source.enters_of_resolveTarget h
    rw [hsource]
    exact .inr ⟨rfl, _, FileSystem.isFileAt_identity_of_load htext, hfresh, rfl⟩

/-- The files that are off the chain, and the size of the tree. -/
noncomputable def measure (visit : Visit) : Nat × Nat :=
  ((visit.source.files.offChain visit.source.context.chain).length, sizeOf visit.tree)

/-- Readers go from value to value finitely often. The depth limit is not needed for that. -/
theorem wellFounded_leadsTo : WellFounded fun inner outer : Visit => outer.LeadsTo inner := by
  refine Subrelation.wf ?_ (InvImage.wf measure (Nat.lt_wfRel.wf.prod_lex Nat.lt_wfRel.wf))
  intro inner outer h
  rw [InvImage, Prod.lex_def]
  -- an included file may hold a larger tree, so the files off the chain come first
  obtain ⟨hsource, hpart⟩ | ⟨hfiles, location, hfile, hfresh, hchain⟩ := h.cases
  · right
    rw [measure, measure, hsource]
    exact ⟨rfl, Tree.sizeOf_lt_of_mem_parts hpart⟩
  · left
    rw [measure, measure, hfiles, hchain]
    exact FileSystem.length_offChain_cons_lt hfile hfresh

end Visit

/-! ## The chain below a root document -/

/-- A source below a root document. -/
structure Nests (files : FileSystem) (options : Options) (root : Location) (source : Source) :
    Prop where
  files_eq : source.files = files
  options_eq : source.context.options = options
  chain_eq : ∃ entered, source.context.chain = entered ++ [root] ∧
    ∀ location ∈ entered, files.isFileAt location
  nodup : source.context.chain.Nodup
  depth_le_limit : source.context.depth ≤ options.maxIncludeDepth

namespace Nests

variable {files : FileSystem} {options : Options} {root : Location} {source : Source}

theorem forFile (files : FileSystem) (path : Path) (options : Options) :
    Nests files options (files.identity path) ⟨files, .forFile files path options⟩ where
  files_eq := rfl
  options_eq := rfl
  chain_eq := ⟨[], rfl, fun _ h => by cases h⟩
  nodup := List.nodup_singleton _
  depth_le_limit := Nat.zero_le _

theorem chain_ne_nil (hs : Nests files options root source) : source.context.chain ≠ [] := by
  obtain ⟨entered, hchain, -⟩ := hs.chain_eq
  rw [hchain]
  exact List.append_ne_nil_of_right_ne_nil _ (List.cons_ne_nil _ _)

/-- A source that enters a text file is below the same root document. -/
theorem enter (hs : Nests files options root source) {path : Path} {text : String}
    {context : FileContext} (htext : source.files.load path = .ok text)
    (henter : source.context.enter source.files path = .ok context) :
    Nests files options root ⟨source.files, context⟩ := by
  obtain ⟨hfresh, hdepth, rfl⟩ := FileContext.enter_eq_ok.1 henter
  obtain ⟨entered, hchain, hentered⟩ := hs.chain_eq
  have hfile := FileSystem.isFileAt_identity_of_load htext
  rw [hs.files_eq] at hfile
  refine ⟨hs.files_eq, hs.options_eq, ⟨source.files.identity path :: entered, ?_, ?_⟩, ?_, ?_⟩
  · exact congrArg _ hchain
  · rw [hs.files_eq]
    exact List.forall_mem_cons.2 ⟨hfile, hentered⟩
  · exact List.nodup_cons.2 ⟨hfresh, hs.nodup⟩
  · simp only [hs.options_eq, FileContext.depth, hchain, List.length_cons, List.length_append]
      at hdepth ⊢
    exact hdepth

/-- An included source is below the same root document. -/
theorem included (hs : Nests files options root source) {target : String}
    {fragment : Option FragmentKind} {included : Included source}
    (h : (source.resolveTarget target fragment).result = .ok included) :
    Nests files options root included.source := by
  obtain ⟨path, text, -, henter, hfiles, htext, -, -⟩ := Source.resolveTarget_eq_ok_iff.1 h
  have hnests := hs.enter htext henter
  rw [← hfiles] at hnests
  exact hnests

/-- No more includes are nested than there are files. -/
theorem depth_le (hs : Nests files options root source) :
    source.context.depth ≤ files.fileCount := by
  obtain ⟨entered, hchain, hentered⟩ := hs.chain_eq
  have hnodup : entered.Nodup := (List.nodup_append.1 (hchain ▸ hs.nodup)).1
  rw [FileContext.depth, hchain, List.length_append]
  exact FileSystem.length_le_fileCount hnodup hentered

/-- Where the root document is a file itself, fewer includes are nested than there are files. -/
theorem depth_lt (hs : Nests files options root source) (hroot : files.isFileAt root) :
    source.context.depth < files.fileCount := by
  obtain ⟨entered, hchain, hentered⟩ := hs.chain_eq
  have hfiles : ∀ location ∈ source.context.chain, files.isFileAt location := by
    intro location hlocation
    rw [hchain, List.mem_append, List.mem_singleton] at hlocation
    obtain h | rfl := hlocation
    · exact hentered location h
    · exact hroot
  have := FileSystem.length_le_fileCount hs.nodup hfiles
  rw [FileContext.depth]
  rw [hchain, List.length_append, List.length_singleton] at *
  omega

theorem depth_le_bound (hs : Nests files options root source) :
    source.context.depth ≤ min options.maxIncludeDepth files.fileCount :=
  Nat.le_min.2 ⟨hs.depth_le_limit, hs.depth_le⟩

/-- What a reader comes to from a source below a root document is below it. -/
theorem of_leadsTo {outer inner : Visit} (hs : Nests files options root outer.source)
    (h : outer.LeadsTo inner) : Nests files options root inner.source := by
  cases h with
  | part => exact hs
  | included htarget h => exact hs.included h

end Nests

/-- The values that readers come to from the root document in a file. -/
def Visit.Reached (files : FileSystem) (path : Path) (options : Options) (visit : Visit) : Prop :=
  ∃ text tree, files.load path = .ok text ∧
    (Fixup.readTree options text.toList).result = .ok tree ∧
    Relation.ReflTransGen LeadsTo ⟨⟨files, .forFile files path options⟩, tree⟩ visit

theorem Visit.Reached.nests {files : FileSystem} {path : Path} {options : Options} {visit : Visit}
    (h : Reached files path options visit) :
    Nests files options (files.identity path) visit.source := by
  obtain ⟨text, tree, -, -, hreach⟩ := h
  induction hreach with
  | refl => exact .forFile files path options
  | tail _ hstep ih => exact ih.of_leadsTo hstep

/-! ## The limit as fuel -/

/-- The context with its limit no higher than some number. -/
def FileContext.within (context : FileContext) (fuel : Nat) : FileContext :=
  { context with options := context.options.within fuel }

/-- The source with its limit no higher than some number. -/
def Source.within (source : Source) (fuel : Nat) : Source :=
  { source with context := source.context.within fuel }

/-- An event tells of an include only where a directive, or the path of a library, is reached from
the root document, and the depth that it tells is that of the file below the value. -/
def Event.TellsOfReached (files : FileSystem) (path : Path) (options : Options) : Event → Prop
  | .includeResolved target included _ depth => ∃ visit : Visit,
    visit.Reached files path options ∧ Library.pathOf? visit.tree = some target ∧
      visit.source.context.resolvePath target = .ok included ∧
      depth = visit.source.context.depth + 1 ∧
      depth ≤ min options.maxIncludeDepth files.fileCount
  | .textIncludeResolved target included => ∃ visit : Visit,
    visit.Reached files path options ∧ includeTarget? visit.tree = some target ∧
      visit.source.context.resolvePath target = .ok included
  | _ => True

/-- The two readings are one, and what it notes satisfies a predicate. -/
def Reading.AlikeNoting {α : Type} (allowed : Event → Prop) (reading reading' : Reading α) : Prop :=
  reading = reading' ∧ ∀ event ∈ reading.events, allowed event

namespace Reading.AlikeNoting

variable {α β : Type} {allowed : Event → Prop}

theorem lift (allowed : Event → Prop) (result : Except Error α) :
    AlikeNoting allowed (liftM result) (liftM result) :=
  ⟨rfl, fun _ h => by cases h⟩

theorem bind {first first' : Reading α} {next next' : α → Reading β}
    (hfirst : AlikeNoting allowed first first')
    (hnext : ∀ value, first.result = .ok value → AlikeNoting allowed (next value) (next' value)) :
    AlikeNoting allowed (first >>= next) (first' >>= next') := by
  obtain ⟨rfl, hfirst⟩ := hfirst
  -- only values that the first reading gives are read on
  change AlikeNoting allowed (first.andThen next) (first.andThen next')
  unfold andThen
  cases hresult : first.result with
  | error error => exact ⟨rfl, hfirst⟩
  | ok value =>
    obtain ⟨hsame, hevents⟩ := hnext value hresult
    dsimp only
    rw [← hsame]
    exact ⟨rfl, List.forall_mem_append.2 ⟨hfirst, hevents⟩⟩

theorem ofLift (result : Except Error α) {next next' : α → Reading β}
    (h : ∀ value, result = .ok value → AlikeNoting allowed (next value) (next' value)) :
    AlikeNoting allowed (liftM result >>= next) (liftM result >>= next') :=
  (lift allowed result).bind h

theorem note {event : Event} (h : allowed event) :
    AlikeNoting allowed (Reading.note event) (Reading.note event) :=
  ⟨rfl, List.forall_mem_singleton.2 h⟩

theorem mapError {reading reading' : Reading α} (change : Error → Error)
    (h : AlikeNoting allowed reading reading') :
    AlikeNoting allowed (reading.mapError change) (reading'.mapError change) :=
  ⟨congrArg _ h.1, h.2⟩

theorem readTree (h : ∀ emptyKeys decimals, allowed (.textFixed emptyKeys decimals))
    (options : Options) (text : List Char) :
    AlikeNoting allowed (Fixup.readTree options text) (Fixup.readTree options text) := by
  unfold Fixup.readTree
  split
  · exact .lift _ (.ok _)
  · split
    · exact .lift _ (Fixup.readYaml text)
    · refine .bind (.note (h _ _)) fun _ _ => ?_
      exact .bind (.lift _ (Fixup.readYaml _)) fun _ _ => .lift _ (.ok _)

end Reading.AlikeNoting

section Within

variable {files : FileSystem} {path : Path} {options : Options} {fuel : Nat} {source : Source}

/-- A limit that is not below the bound refuses what the limit of the options refuses, and in the
same words. -/
theorem Nests.enter_within {root : Location} (hs : Nests files options root source)
    (hroot : files.isFileAt root) (hfuel : min options.maxIncludeDepth files.fileCount ≤ fuel)
    (path : Path) :
    (source.context.within fuel).enter source.files path =
      (source.context.enter source.files path).map (·.within fuel) := by
  have hdepth := hs.depth_lt hroot
  rw [← hs.options_eq] at hfuel
  rw [hs.files_eq]
  by_cases hcircular : files.identity path ∈ source.context.chain
  · rw [FileContext.enter_of_mem _ _ hcircular,
      FileContext.enter_of_mem _ (source.context.within fuel) hcircular]
    rfl
  by_cases hdeep : source.context.options.maxIncludeDepth ≤ source.context.depth
  · -- the limit is below the number of files, so the fuel does not lower it
    have hsame : source.context.within fuel = source.context := by
      have hmin : min source.context.options.maxIncludeDepth fuel =
          source.context.options.maxIncludeDepth := by omega
      rw [FileContext.within, Options.within, hmin]
    rw [hsame, FileContext.enter_of_deep _ _ hcircular hdeep]
    rfl
  · have hfits : source.context.depth < (source.context.within fuel).options.maxIncludeDepth := by
      change source.context.depth < min source.context.options.maxIncludeDepth fuel
      omega
    rw [FileContext.enter_eq_ok.2 ⟨hcircular, Nat.not_le.1 hdeep, rfl⟩]
    exact FileContext.enter_eq_ok.2 ⟨hcircular, hfits, rfl⟩

namespace Visit.Reached

variable {tree : Tree}

theorem part {part : Tree} (h : Reached files path options ⟨source, tree⟩)
    (hpart : part ∈ tree.parts) : Reached files path options ⟨source, part⟩ := by
  obtain ⟨text, root, htext, hroot, hreach⟩ := h
  exact ⟨text, root, htext, hroot, hreach.tail (.part hpart)⟩

theorem included {target : String} {fragment : Option FragmentKind} {included : Included source}
    (h : Reached files path options ⟨source, tree⟩) (htarget : Library.pathOf? tree = some target)
    (hincluded : (source.resolveTarget target fragment).result = .ok included) :
    Reached files path options ⟨included.source, included.tree⟩ := by
  obtain ⟨text, root, htext, hroot, hreach⟩ := h
  exact ⟨text, root, htext, hroot, hreach.tail (.included htarget hincluded)⟩

theorem isFileAt_root {visit : Visit} (h : visit.Reached files path options) :
    files.isFileAt (files.identity path) := by
  obtain ⟨text, -, htext, -⟩ := h
  exact FileSystem.isFileAt_identity_of_load htext

/-- Including a file under the two limits. -/
theorem resolveTarget_within (hv : Reached files path options ⟨source, tree⟩)
    (hfuel : min options.maxIncludeDepth files.fileCount ≤ fuel) {target : String}
    (htarget : Library.pathOf? tree = some target) (fragment : Option FragmentKind) {α : Type}
    {read : Included source → Reading α} {read' : Included (source.within fuel) → Reading α}
    (h : ∀ inner content nested nested', Reached files path options ⟨inner, content⟩ →
      Reading.AlikeNoting (Event.TellsOfReached files path options)
        (read ⟨inner, content, nested⟩) (read' ⟨inner.within fuel, content, nested'⟩)) :
    Reading.AlikeNoting (Event.TellsOfReached files path options)
      (source.resolveTarget target fragment >>= read)
      ((source.within fuel).resolveTarget target fragment >>= read') := by
  cases hpath : source.context.resolvePath target with
  | error error =>
    have hpath' : (source.within fuel).context.resolvePath target = .error error := hpath
    unfold Source.resolveTarget
    rw [hpath, hpath']
    exact .lift _ (.error error)
  | ok included =>
    have hpath' : (source.within fuel).context.resolvePath target = .ok included := hpath
    have hwithin := hv.nests.enter_within hv.isFileAt_root hfuel included
    cases henter : source.context.enter source.files included with
    | error error =>
      rw [henter] at hwithin
      rw [Source.resolveTarget_of_refused hpath henter,
        Source.resolveTarget_of_refused hpath' hwithin]
      exact .lift _ (.error error)
    | ok context =>
      rw [henter] at hwithin
      rw [Source.resolveTarget_of_enter hpath henter,
        Source.resolveTarget_of_enter hpath' hwithin]
      simp only [bind_assoc, pure_bind]
      refine .ofLift _ fun text htext => .ofLift _ fun _ hheader => ?_
      refine .bind (.note ?_) fun _ _ => .bind (.readTree ?_ _ _) fun content hcontent => ?_
      · exact ⟨_, hv, htarget, hpath, FileContext.depth_of_enter hv.nests.chain_ne_nil henter,
          (hv.nests.enter htext henter).depth_le_bound⟩
      · exact fun _ _ => trivial
      · have hresolved : (source.resolveTarget target fragment).result =
            .ok ⟨{ source with context }, content, FileContext.remaining_lt_of_enter henter⟩ :=
          Source.resolveTarget_eq_ok_iff.2
            ⟨included, text, hpath, henter, rfl, htext, hheader, hcontent⟩
        exact h _ content _ _ (hv.included htarget hresolved)

/-- The text of a file under the two limits. -/
theorem readText_within (hv : Reached files path options ⟨source, tree⟩)
    (hfuel : min options.maxIncludeDepth files.fileCount ≤ fuel) :
    Reading.AlikeNoting (Event.TellsOfReached files path options)
      (source.readText tree) ((source.within fuel).readText tree) := by
  unfold Source.readText
  refine .ofLift _ fun target htarget => .ofLift (source.context.resolvePath target) ?_
  intro included hpath
  have hwithin := hv.nests.enter_within hv.isFileAt_root hfuel included
  cases henter : source.context.enter source.files included with
  | error error =>
    rw [henter] at hwithin
    rw [Source.enter_eq_error henter, Source.enter_eq_error hwithin]
    exact .lift _ (.error error)
  | ok context =>
    rw [henter] at hwithin
    rw [Source.enter_eq_ok henter, Source.enter_eq_ok hwithin]
    refine .bind (.lift _ (.ok ())) fun _ _ => .bind (.note ?_) fun _ _ => ?_
    · exact ⟨_, hv, Source.directive_eq_ok_iff.1 htarget, hpath⟩
    · exact .lift _ (source.files.load included)

end Visit.Reached

/-- Reading below a root document under the limit of some options, and under a limit that is not
below the bound. -/
def LibraryAgreement.withinFuel
    (hfuel : min options.maxIncludeDepth files.fileCount ≤ fuel) : LibraryAgreement where
  visits source other tree :=
    Visit.Reached files path options ⟨source, tree⟩ ∧ other = source.within fuel
  readings := Reading.AlikeNoting (Event.TellsOfReached files path options)
  part h hpart := ⟨h.1.part hpart, h.2⟩
  plain _ := .lift _ _
  bind hfirst hnext := hfirst.bind fun value _ => hnext value
  named _ _ := .mapError _
  skipped _ := .note trivial
  text := by
    rintro source _ tree ⟨hv, rfl⟩ -
    exact hv.readText_within hfuel
  included := by
    rintro _ source _ tree fragment read read' ⟨hv, rfl⟩ - h
    unfold Source.resolve
    simp only [bind_assoc]
    refine .ofLift _ fun target htarget => ?_
    have hpathOf : Library.pathOf? tree = some target := by
      rw [Library.pathOf?, Source.directive_eq_ok_iff.1 htarget, Option.some_or]
    exact hv.resolveTarget_within hfuel hpathOf fragment
      fun inner content nested nested' hinner => h _ _ _ _ _ ⟨hinner, rfl⟩
  library := by
    rintro _ source _ tree target name read read' ⟨hv, rfl⟩ htarget h
    refine .mapError _ (hv.resolveTarget_within hfuel htarget _ ?_)
    exact fun inner content nested nested' hinner => h _ _ _ _ _ ⟨hinner, rfl⟩

end Within

namespace Document

/-- A document in a file is read alike with a limit that is not below the bound. -/
theorem ofFile_within (files : FileSystem) (path : Path) (options : Options) {fuel : Nat}
    (hfuel : min options.maxIncludeDepth files.fileCount ≤ fuel) :
    Reading.AlikeNoting (Event.TellsOfReached files path options)
      (ofFile files path options) (ofFile files path (options.within fuel)) := by
  refine .ofLift _ fun text htext => .ofLift _ fun _ _ => ?_
  refine .bind (.readTree (fun _ _ => trivial) options text.toList) fun tree htree => ?_
  refine .bind (.note trivial) fun _ _ => ?_
  refine .bind ?_ fun document _ => .bind (.note trivial) fun _ _ => .lift _ (.ok _)
  have hroot : Visit.Reached files path options ⟨⟨files, .forFile files path options⟩, tree⟩ :=
    ⟨text, tree, htext, htree, .refl⟩
  exact agree_ofTree (.withinFuel hfuel) ⟨hroot, rfl⟩

/-- Following includes ends. Readers go from value to value finitely often: to a part in the same
source, or into a file that was not on the chain. Around each value that is reached from a root
document, no more includes are nested than the limit and no more than there are files. All includes
that reading the document notes arise at such values. With the limit as fuel, all fuel from the
bound on gives the same reading. -/
theorem bounded_nesting (files : FileSystem) (path : Path) (options : Options) :
    (WellFounded fun inner outer : Visit => outer.LeadsTo inner) ∧
    (∀ outer inner : Visit, outer.LeadsTo inner →
      (inner.source = outer.source ∧ inner.tree ∈ outer.tree.parts) ∨ outer.Enters inner) ∧
    (∀ visit : Visit, visit.Reached files path options →
      visit.source.context.depth ≤ min options.maxIncludeDepth files.fileCount) ∧
    (∀ event ∈ (ofFile files path options).events, event.TellsOfReached files path options) ∧
    ∀ fuel, min options.maxIncludeDepth files.fileCount ≤ fuel →
      ofFile files path (options.within fuel) = ofFile files path options :=
  ⟨Visit.wellFounded_leadsTo, fun _ _ => Visit.LeadsTo.cases,
    fun _ hv => hv.nests.depth_le_bound, (ofFile_within files path options le_rfl).2,
    fun _ hfuel => (ofFile_within files path options hfuel).1.symm⟩

/-- Two files that include each other in a type. -/
def mutualIncludes : FileSystem :=
  ⟨[(["a.raml"], .file (some "#%RAML 1.0\ntitle: A\ntypes:\n  T: !include b.raml\n")),
    (["b.raml"], .file (some "properties:\n  p: !include a.raml\n"))]⟩

/-- Two includes are fuel enough for two files, whatever the limit. -/
theorem mutualIncludes_bounded :
    mutualIncludes.fileCount = 2 ∧
      ofFile mutualIncludes ⟨"/a.raml"⟩ (Options.within {} 2) =
        ofFile mutualIncludes ⟨"/a.raml"⟩ {} := by
  have hcount : mutualIncludes.fileCount = 2 := by decide
  refine ⟨hcount, ?_⟩
  refine (bounded_nesting mutualIncludes ⟨"/a.raml"⟩ {}).2.2.2.2 2 ?_
  rw [hcount]
  decide

end Document

end RamlDoc
