import RamlDoc.Proofs.Entering
import RamlDoc.Read.Document

/-!
# Misfits

Most errors tell that a value does not fit its place: it is of the wrong kind, outside its
vocabulary, under a key that is not a string, or absent. The readers of single fields give no others
(`FailsOnly Error.isMisfit`), apart from those that follow an include. Neither wraps an error in
another nor calls anything impossible (`Error.isOrdinary`).
-/

namespace RamlDoc

open Yaml

namespace Error

/-- Whether an error tells that a value does not fit its place. -/
def isMisfit : Error → Bool
  | .missingKey .. | .wrongKind .. | .keyNotString _ | .invalidValue .. => true
  | _ => false

/-- Whether an error is neither wrapped nor internal. -/
def isOrdinary : Error → Bool
  | .failed .. | .internal _ => false
  | _ => true

theorem isOrdinary_of_isMisfit {error : Error} (h : error.isMisfit) : error.isOrdinary := by
  cases error with
  | failed => cases h
  | internal => cases h
  | _ => rfl

theorem rootCause_of_isOrdinary {error : Error} (h : error.isOrdinary) :
    error.rootCause = error := by
  cases error with
  | failed => cases h
  | _ => rfl

end Error

/-- A result is an error only if the error is allowed. -/
def FailsOnly {α : Type} (allowed : Error → Bool) (result : Except Error α) : Prop :=
  ∀ error, result = .error error → allowed error

namespace FailsOnly

variable {α β : Type} {allowed : Error → Bool}

theorem ok (value : α) : FailsOnly allowed (.ok value) := nofun

theorem error {error : Error} (h : allowed error) :
    FailsOnly allowed (.error error : Except Error α) := by
  rintro _ ⟨⟩
  exact h

theorem mono {allowed' : Error → Bool} {result : Except Error α} (h : FailsOnly allowed result)
    (hallowed : ∀ error, allowed error → allowed' error) : FailsOnly allowed' result :=
  fun error heq => hallowed error (h error heq)

/-- What goes on behind a result fails only as allowed if both do. -/
theorem bind {first : Except Error α} {next : α → Except Error β} (hfirst : FailsOnly allowed first)
    (hnext : ∀ value, first = .ok value → FailsOnly allowed (next value)) :
    FailsOnly allowed (first >>= next) := by
  cases first with
  | error error => exact .error (hfirst error rfl)
  | ok value => exact hnext value rfl

theorem map {result : Except Error α} (f : α → β) (h : FailsOnly allowed result) :
    FailsOnly allowed (f <$> result) := by
  cases result with
  | error error => exact .error (h error rfl)
  | ok value => exact .ok _

/-- A list of results fails only as allowed if each of them does. -/
theorem mapM {read : α → Except Error β} {items : List α}
    (h : ∀ item ∈ items, FailsOnly allowed (read item)) : FailsOnly allowed (items.mapM read) := by
  induction items with
  | nil => exact .ok _
  | cons item items ih =>
    rw [List.mapM_cons]
    refine (h item List.mem_cons_self).bind fun _ _ => ?_
    exact (ih fun other hother => h other (List.mem_cons_of_mem _ hother)).bind fun _ _ => .ok _

end FailsOnly

/-- A result is an error only if that tells of a misfit. -/
abbrev Misfits {α : Type} (result : Except Error α) : Prop := FailsOnly Error.isMisfit result

/-- A result is an error only if that is neither wrapped nor internal. -/
abbrev Ordinary {α : Type} (result : Except Error α) : Prop := FailsOnly Error.isOrdinary result

theorem FailsOnly.ordinary {α : Type} {result : Except Error α} (h : Misfits result) :
    Ordinary result := h.mono fun _ => Error.isOrdinary_of_isMisfit

/-! ## Fields -/

/-- A key that is no string is a misfit. -/
theorem misfits_keyText (construct : String) (key : Tree) : Misfits (keyText construct key) := by
  unfold keyText
  split
  · exact .ok _
  · exact .error rfl

/-- A value that is neither a mapping nor null is a misfit where entries are wanted. -/
theorem misfits_entriesOf (key : String) (tree : Tree) : Misfits (entriesOf key tree) := by
  unfold entriesOf
  split
  · exact .ok _
  · exact .ok _
  · exact .error rfl

namespace Field

variable {α : Type}

/-- A field tells of a misfit unless it is absent or has the value that is wanted. -/
theorem misfits_of (entries : Entries) (key expected : String) (value? : Tree → Option α) :
    Misfits (of entries key expected value?) := by
  unfold of
  split
  · exact .ok _
  · split
    · exact .ok _
    · exact .error rfl

/-- A field of texts tells of a misfit for any item that is no text. -/
theorem misfits_strings (entries : Entries) (key : String) : Misfits (strings entries key) := by
  unfold strings
  split
  · exact .ok _
  · refine .map _ (.mapM fun item _ => ?_)
    split
    · exact .ok _
    · exact .error rfl
  · split
    · exact .ok _
    · exact .error rfl

theorem misfits_required (key context : String) (value : Option α) :
    Misfits (required key context value) := by
  cases value with
  | none => exact .error rfl
  | some value => exact .ok value

end Field

/-! ## Restrictions and usages -/

namespace Restrictions

theorem misfits_readFormat (entries : Entries) : Misfits (readFormat entries) := by
  unfold readFormat
  refine (Field.misfits_of entries _ _ _).bind fun name _ => ?_
  cases name with
  | none => exact .ok _
  | some name =>
    dsimp only
    split
    · exact .ok _
    · exact .error rfl

/-- Restrictions fail only with a field that does not fit or a format without a name. -/
theorem misfits_read (entries : Entries) (type : Option DataType) :
    Misfits (read entries type) := by
  have hnumber : Misfits (readNumber entries) := by
    refine (misfits_readFormat entries).bind fun _ _ => ?_
    refine (Field.misfits_of entries _ _ _).bind fun _ _ => ?_
    refine (Field.misfits_of entries _ _ _).bind fun _ _ => ?_
    exact (Field.misfits_of entries _ _ _).bind fun _ _ => .ok _
  unfold read
  split
  · refine (Field.misfits_of entries _ _ _).bind fun _ _ => ?_
    refine (Field.misfits_of entries _ _ _).bind fun _ _ => ?_
    exact (Field.misfits_of entries _ _ _).bind fun _ _ => .ok _
  · exact hnumber
  · exact hnumber
  · refine (Field.misfits_strings entries _).bind fun _ _ => ?_
    refine (Field.misfits_of entries _ _ _).bind fun _ _ => ?_
    exact (Field.misfits_of entries _ _ _).bind fun _ _ => .ok _
  · exact .ok _

end Restrictions

theorem TypeDeclaration.misfits_readArray (entries : Entries) (items : Option DataType) :
    Misfits (readArray entries items) := by
  refine (Field.misfits_of entries _ _ _).bind fun _ _ => ?_
  refine (Field.misfits_of entries _ _ _).bind fun _ _ => ?_
  exact (Field.misfits_of entries _ _ _).bind fun _ _ => .ok _

/-- A usage fails only if it is neither a name nor a mapping from one name to parameters. -/
theorem misfits_readUsage (key : String) (tree : Tree) : Misfits (readUsage key tree) := by
  unfold readUsage
  split
  · exact .ok _
  · refine (misfits_keyText _ _).bind fun name _ => ?_
    split
    · exact .ok _
    · exact .ok _
    · exact .error rfl
  · exact .error rfl

theorem misfits_mapM_readUsage (key : String) (tree : Option Tree) :
    Misfits (tree.mapM (readUsage key)) := by
  cases tree with
  | none => exact .ok _
  | some tree => exact .map _ (misfits_readUsage key tree)

/-- A field of usages fails only with one of them. -/
theorem misfits_readUsages {read : Tree → Except Error Usage} (h : ∀ tree, Misfits (read tree))
    (tree : Option Tree) : Misfits (readUsages read tree) := by
  cases tree with
  | none => exact .ok _
  | some tree => exact .map _ (.mapM fun item _ => h item)

theorem misfits_readTraitUsages (entries : Entries) : Misfits (readTraitUsages entries) :=
  misfits_readUsages (misfits_readUsage "is") _

theorem misfits_readSecuredBy (entries : Entries) : Misfits (readSecuredBy entries) := by
  refine misfits_readUsages (fun tree => ?_) _
  unfold readSecurityUsage
  split
  · exact .ok _
  · exact misfits_readUsage _ _

/-! ## Words -/

namespace AnnotationKind

theorem misfits_readShape (name : String) : Misfits (readShape name) := by
  unfold readShape
  split
  · exact .ok _
  · exact .error rfl

theorem misfits_ofExpression (expression : String) : Misfits (ofExpression expression) := by
  refine FailsOnly.bind (.mapM fun name _ => misfits_readShape name) fun shapes _ => ?_
  split <;> exact .ok _

theorem misfits_ofItems (items : List Tree) : Misfits (ofItems items) := by
  refine FailsOnly.bind (.mapM fun item _ => ?_) fun shapes _ => .ok _
  split
  · exact misfits_readShape _
  · exact .error rfl

/-- The kind of an annotation type fails only with a shape that is not in the vocabulary. -/
theorem misfits_ofField (type : Option Tree) (hasProperties : Bool) :
    Misfits (ofField type hasProperties) := by
  unfold ofField
  split
  · exact misfits_ofExpression _
  · exact misfits_ofItems _
  · exact .error rfl
  · exact .ok _

end AnnotationKind

/-- Protocols fail only with a name that is not in the vocabulary. -/
theorem Protocol.misfits_readAll (entries : Entries) : Misfits (readAll entries) := by
  refine (Field.misfits_strings entries _).bind fun names _ => ?_
  cases names with
  | none => exact .ok _
  | some names =>
    refine FailsOnly.bind (.mapM fun name _ => ?_) fun protocols _ => .ok _
    unfold read
    split
    · exact .ok _
    · exact .error rfl

/-- A security type fails only if it is absent, no text or not in the vocabulary. -/
theorem SecurityType.misfits_read (entries : Entries) : Misfits (read entries) := by
  refine (Field.misfits_of entries _ _ _).bind fun name _ => ?_
  refine (Field.misfits_required _ _ name).bind fun name _ => ?_
  split
  · exact .ok _
  · exact .error rfl

/-- Settings fail only with a field that does not fit. -/
theorem SecuritySettings.misfits_read (type : SecurityType) (entries : Entries) :
    Misfits (read type entries) := by
  refine (Field.misfits_of entries _ _ _).bind fun settings _ => ?_
  cases settings with
  | none => exact .ok _
  | some settings =>
    refine FailsOnly.bind ?_ fun settings _ => .ok _
    unfold ofEntries
    split
    · refine .map _ ((Field.misfits_of settings _ _ _).bind fun _ _ => ?_)
      refine (Field.misfits_of settings _ _ _).bind fun _ _ => ?_
      refine (Field.misfits_of settings _ _ _).bind fun _ _ => ?_
      exact (Field.misfits_strings settings _).bind fun _ _ => .ok _
    · refine .map _ ((Field.misfits_of settings _ _ _).bind fun _ _ => ?_)
      refine (Field.misfits_of settings _ _ _).bind fun _ _ => ?_
      refine (Field.misfits_strings settings _).bind fun _ _ => ?_
      exact (Field.misfits_strings settings _).bind fun _ _ => .ok _
    · exact .ok _

/-! ## Includes -/

/-- A file that cannot be loaded is told by its path. -/
theorem FileSystem.ordinary_load (files : FileSystem) (path : Path) :
    Ordinary (files.load path) := by
  unfold load
  split
  · exact .error rfl
  · exact .error rfl
  · exact .error rfl
  · exact .ok _

/-- A text with a wrong header is told by its first line. -/
theorem Header.ordinary_checkRoot (text : List Char) : Ordinary (checkRoot text) := by
  unfold checkRoot
  split
  · exact .error rfl
  · dsimp only
    split
    · exact .error rfl
    · split
      · exact .error rfl
      · split
        · exact .ok _
        · exact .error rfl

/-- A fragment with a wrong header is told by its path and the kind that is expected. -/
theorem Header.ordinary_checkFragment (text : List Char) (path : Path) (kind : FragmentKind) :
    Ordinary (checkFragment text path kind) := by
  unfold checkFragment
  dsimp only
  split
  · exact .error rfl
  · split
    · exact .error rfl
    · split
      · exact .ok _
      · exact .error rfl

/-- A tree fails to be read only with what the reader of YAML refuses. -/
theorem Fixup.ordinary_readTree (options : Options) (text : List Char) :
    Ordinary (readTree options text).result := by
  have hyaml : ∀ text, Ordinary (readYaml text) := by
    intro text
    unfold readYaml
    cases Yaml.read text with
    | error cause => exact .error rfl
    | ok tree => exact .ok tree
  unfold readTree
  split
  · exact .ok _
  · split
    · exact hyaml text
    · simp only [Reading.result_bind]
      exact (FailsOnly.ok ()).bind fun _ _ => (hyaml _).bind fun _ _ => .ok _

namespace Source

variable (source : Source) (tree : Tree)

theorem ordinary_directive : Ordinary (directive tree) := by
  unfold directive
  split
  · exact .ok _
  · exact .error rfl

theorem ordinary_resolvePath (target : String) :
    Ordinary (source.context.resolvePath target) := by
  unfold FileContext.resolvePath
  split
  · exact .error rfl
  · exact .ok _

/-- A file is not entered if it is open already or the includes are too deep. -/
theorem ordinary_enter (path : Path) : Ordinary (source.enter path) := by
  unfold enter
  split
  next error h =>
    refine .error ?_
    unfold FileContext.enter at h
    split at h
    · cases h
      rfl
    · split at h
      · cases h
        rfl
      · cases h
  next => exact .ok _

theorem ordinary_resolveTarget (target : String) (fragment : Option FragmentKind) :
    Ordinary (source.resolveTarget target fragment).result := by
  rw [result_resolveTarget]
  refine (source.ordinary_resolvePath target).bind fun path _ => ?_
  refine (source.ordinary_enter path).bind fun entered _ => ?_
  refine (source.files.ordinary_load path).bind fun text _ => ?_
  refine FailsOnly.bind ?_ fun _ _ => (Fixup.ordinary_readTree _ _).bind fun _ _ => .ok _
  cases fragment with
  | none => exact .ok _
  | some kind => exact Header.ordinary_checkFragment _ _ _

/-- Following a directive fails only with the directive, the header or the text of its file. -/
theorem ordinary_resolve (fragment : Option FragmentKind) :
    Ordinary (source.resolve tree fragment).result := by
  unfold resolve
  rw [Reading.result_bind]
  exact (ordinary_directive tree).bind fun target _ => source.ordinary_resolveTarget target fragment

/-- Reading the text of a file fails only with the directive or with that file. -/
theorem ordinary_readText : Ordinary (source.readText tree).result := by
  unfold readText
  simp only [Reading.result_bind, Reading.result_monadLift]
  refine (ordinary_directive tree).bind fun target _ => ?_
  refine (source.ordinary_resolvePath target).bind fun path _ => ?_
  have hentered : Ordinary (discard (liftM (source.enter path) : Reading _)).result := by
    change Ordinary ((liftM (source.enter path) : Reading _) >>= fun _ => pure ()).result
    rw [Reading.result_bind]
    exact (source.ordinary_enter path).bind fun _ _ => .ok _
  refine hentered.bind fun _ _ => ?_
  exact (FailsOnly.ok ()).bind fun _ _ => source.files.ordinary_load path

/-- A slot that may hold a directive fails only with that. -/
theorem ordinary_openSlot (fragment : Option FragmentKind) :
    Ordinary (source.openSlot fragment tree).result := by
  unfold openSlot
  split
  · rw [Reading.result_map]
    exact .map _ (source.ordinary_resolve tree fragment)
  · split
    · exact .error rfl
    · exact .ok _

/-- A block fails only with one of the directives that lead to it, by induction on the includes that
are left. -/
theorem ordinary_openBlock (source : Source) (tree : Tree) :
    Ordinary (source.openBlock tree).result := by
  rw [openBlock]
  split
  · simp only [Reading.result_bind, Reading.result_pure]
    refine (source.ordinary_resolve tree none).bind fun included _ => ?_
    have := included.nested
    exact (ordinary_openBlock included.source included.tree).bind fun _ _ => .ok _
  · exact .ok _
termination_by source.remaining

end Source

theorem Field.ordinary_text (entries : Entries) (key : String) (source : Source) :
    Ordinary (text entries key source).result := by
  unfold text
  split
  · exact .ok _
  · split
    · rw [Reading.result_map]
      exact .map _ (source.ordinary_readText _)
    · exact (misfits_of entries key _ _).ordinary

end RamlDoc
