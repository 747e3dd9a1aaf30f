import RamlDoc.Command.Report
import RamlDoc.Proofs.InternalErrors

/-!
# The names told with an error

An error that arises inside named declarations is told with their names. Libraries are nested, and
all other named declarations stand in a document or a library and hold none. So the names are those
of some libraries and of at most one other declaration, with an error inside that is told without a
name (`Names`). They are the keys that lead from the root of the document to where reading stops
(`Site.exists_names`), and the issue that is reported for the error has the code of the error
inside exactly if there is a name (`Document.error_accounted`).
-/

namespace RamlDoc

open Yaml

namespace Error

/-- Whether an error is told with the name of a declaration. -/
def isWrapped : Error → Bool
  | .failed .. => true
  | _ => false

variable {error : Error}

theorem isWrapped_of_isOrdinary (h : error.isOrdinary) : error.isWrapped = false := by
  cases error with
  | failed => cases h
  | _ => rfl

theorem rootCause_of_isWrapped (h : error.isWrapped = false) : error.rootCause = error := by
  cases error with
  | failed => cases h
  | _ => rfl

/-- Only errors that are told with a name have the code for that. -/
theorem code_eq_iff : error.code = "E2030" ↔ error.isWrapped = true := by
  cases error with
  | failed => exact ⟨fun _ => rfl, fun _ => rfl⟩
  | _ => exact ⟨fun h => absurd h (by simp [code]), fun h => by cases h⟩

end Error

/-- The names that are told with an error: those of the libraries it arises in, the outermost first,
and that of a declaration of another kind. -/
structure Names where
  libraries : List String
  declaration? : Option (NodeKind × String)

namespace Names

variable {names : Names} {cause : Error}

/-- An error as it is told with the names. -/
def tell (names : Names) (cause : Error) : Error :=
  names.libraries.foldr (.failed .library)
    (names.declaration?.elim cause fun (kind, name) => .failed kind name cause)

/-- Whether there are no names. -/
def isEmpty (names : Names) : Bool := names.libraries.isEmpty && names.declaration?.isNone

/-- The names inside one more library. -/
def inside (library : String) (names : Names) : Names :=
  { names with libraries := library :: names.libraries }

theorem rootCause_tell (h : cause.isWrapped = false) : (names.tell cause).rootCause = cause := by
  obtain ⟨libraries, declaration?⟩ := names
  induction libraries with
  | nil =>
    cases declaration? with
    | none => exact Error.rootCause_of_isWrapped h
    | some declaration => exact Error.rootCause_of_isWrapped h
  | cons library libraries ih => exact ih

theorem isWrapped_tell (h : cause.isWrapped = false) :
    (names.tell cause).isWrapped = !names.isEmpty := by
  obtain ⟨libraries, declaration?⟩ := names
  cases libraries with
  | nil =>
    cases declaration? with
    | none => exact h
    | some declaration => rfl
  | cons library libraries => rfl

/-- The code of an error inside is told where it is told with a name. -/
theorem causeCode?_tell (h : cause.isWrapped = false) :
    (names.tell cause).causeCode? = if names.isEmpty then none else some cause.code := by
  have hcode : cause.code ≠ "E2030" := by
    intro heq
    rw [Error.code_eq_iff, h] at heq
    cases heq
  rw [Error.causeCode?, rootCause_tell h]
  cases hempty : names.isEmpty with
  | true =>
    have hplain : (names.tell cause).isWrapped = false := by rw [isWrapped_tell h, hempty]; rfl
    have heq := Error.rootCause_of_isWrapped hplain
    rw [rootCause_tell h] at heq
    rw [← heq]
    simp
  | false =>
    have hwrapped : (names.tell cause).code = "E2030" := by
      rw [Error.code_eq_iff, isWrapped_tell h, hempty]
      rfl
    rw [hwrapped, if_neg hcode]
    rfl

end Names

/-! ## Named declarations and their parts -/

/-- The field that declares the nodes of a kind. -/
def NodeKind.field : NodeKind → String
  | .library => "uses"
  | .trait => "traits"
  | .resourceType => "resourceTypes"
  | .securityScheme => "securitySchemes"
  | .annotationType => "annotationTypes"

/-- What is read at the declaration of a name. -/
def NodeKind.site : NodeKind → String → SiteKind
  | .library => .library
  | .trait => .trait
  | .resourceType => .resourceType
  | .securityScheme => .securityScheme
  | .annotationType => .annotationType

theorem NodeKind.tell_site (kind : NodeKind) (name : String) (error : Error) :
    (kind.site name).tell error = .failed kind name error := by
  cases kind <;> rfl

/-- Whether what is read stands in no block of named declarations and is no document. -/
def SiteKind.isPart : SiteKind → Bool
  | .document | .library _ | .trait _ | .resourceType _ | .securityScheme _
  | .annotationType _ => false
  | _ => true

theorem SiteKind.tell_of_isPart {kind : SiteKind} (h : kind.isPart = true) (error : Error) :
    kind.tell error = error := by
  cases kind <;> first | rfl | cases h

namespace Site

variable {source : Source} {entries : Entries} {kind : SiteKind} {site inside : Site}

theorem isPart_of_mem_atKeys {kind? : Tree → Option SiteKind}
    (hkind : ∀ key kind, kind? key = some kind → kind.isPart = true)
    (h : inside ∈ atKeys source entries kind?) : inside.kind.isPart = true := by
  obtain ⟨entry, -, hsome, -⟩ := h
  exact hkind _ _ hsome

theorem isPart_of_mem_atBlock {key : String} {make : String → SiteKind}
    (hkind : ∀ name, (make name).isPart = true) (h : inside ∈ atBlock source entries key make) :
    inside.kind.isPart = true := by
  obtain ⟨tree, slot, declared, -, -, -, h⟩ := h
  refine isPart_of_mem_atKeys (fun key kind hsome => ?_) h
  obtain ⟨name, -, rfl⟩ := Option.map_eq_some_iff.1 hsome
  exact hkind name

theorem isPart_of_mem_atField {key : String} (hkind : kind.isPart = true)
    (h : inside ∈ atField source entries key kind) : inside.kind.isPart = true := by
  obtain ⟨-, rfl, -⟩ := h
  exact hkind

theorem isPart_of_mem_ofType (h : inside ∈ ofType source entries) : inside.kind.isPart = true := by
  obtain rfl := Set.mem_singleton_iff.1 h
  rfl

theorem isPart_of_mem_ofExamples (h : inside ∈ ofExamples source entries) :
    inside.kind.isPart = true := by
  rcases h with h | ⟨named, -, h⟩
  · exact isPart_of_mem_atField rfl h
  · refine isPart_of_mem_atKeys (fun key kind hsome => ?_) h
    obtain ⟨name, -, rfl⟩ := Option.map_eq_some_iff.1 hsome
    rfl

theorem isPart_of_mem_ofPayload (h : inside ∈ ofPayload source entries) :
    inside.kind.isPart = true := by
  rcases h with (h | h) | h
  · exact isPart_of_mem_ofType h
  · exact isPart_of_mem_atBlock (fun _ => rfl) h
  · exact isPart_of_mem_ofExamples h

theorem isPart_of_mem_ofExchange (h : inside ∈ ofExchange source entries) :
    inside.kind.isPart = true := by
  rcases h with ((h | h) | h) | ⟨codes, -, h⟩
  · exact isPart_of_mem_atBlock (fun _ => rfl) h
  · exact isPart_of_mem_atBlock (fun _ => rfl) h
  · exact isPart_of_mem_atField rfl h
  · refine isPart_of_mem_atKeys (fun key kind hsome => ?_) h
    obtain ⟨code, -, rfl⟩ := Option.map_eq_some_iff.1 hsome
    rfl

theorem isPart_of_mem_ofMethods {allowOptional : Bool}
    (h : inside ∈ ofMethods source entries allowOptional) : inside.kind.isPart = true := by
  refine isPart_of_mem_atKeys (fun key kind hsome => ?_) h
  obtain ⟨method, -, rfl⟩ := Option.map_eq_some_iff.1 hsome
  rfl

theorem isPart_of_mem_ofResources (h : inside ∈ ofResources source entries) :
    inside.kind.isPart = true := by
  refine isPart_of_mem_atKeys (fun key kind hsome => ?_) h
  obtain ⟨path, -, rfl⟩ := Option.map_eq_some_iff.1 hsome
  rfl

theorem isPart_of_mem_ofMediaTypes (h : inside ∈ ofMediaTypes source entries) :
    inside.kind.isPart = true := by
  refine isPart_of_mem_atKeys (fun key kind hsome => ?_) h
  obtain ⟨identifier, -, rfl⟩ := Option.map_eq_some_iff.1 hsome
  rfl

/-- What reads no libraries has only parts in it. -/
theorem isPart_of_mem_ofEntries (hdocument : kind ≠ .document)
    (hlibrary : ∀ identifier, kind ≠ .library identifier)
    (h : inside ∈ ofEntries source entries kind) : inside.kind.isPart = true := by
  cases kind with
  | document => exact absurd rfl hdocument
  | library identifier => exact absurd rfl (hlibrary identifier)
  | type =>
    rcases h with (((h | h) | h) | h) | h
    · exact isPart_of_mem_ofType h
    · obtain rfl := Set.mem_singleton_iff.1 h
      rfl
    · exact isPart_of_mem_atBlock (fun _ => rfl) h
    · exact isPart_of_mem_atBlock (fun _ => rfl) h
    · exact isPart_of_mem_ofExamples h
  | annotationType => exact isPart_of_mem_atBlock (fun _ => rfl) h
  | trait | method =>
    rcases h with h | h
    · exact isPart_of_mem_ofExchange h
    · exact isPart_of_mem_atField rfl h
  | resourceType =>
    rcases h with h | h
    · exact isPart_of_mem_ofMethods h
    · exact isPart_of_mem_atBlock (fun _ => rfl) h
  | securityScheme =>
    obtain ⟨described, -, h⟩ := h
    exact isPart_of_mem_ofExchange h
  | resource =>
    rcases h with (h | h) | h
    · exact isPart_of_mem_ofMethods h
    · exact isPart_of_mem_ofResources h
    · exact isPart_of_mem_atBlock (fun _ => rfl) h
  | response =>
    rcases h with h | h
    · exact isPart_of_mem_atBlock (fun _ => rfl) h
    · exact isPart_of_mem_atField rfl h
  | body =>
    rcases h with h | h
    · exact isPart_of_mem_ofPayload h
    · exact isPart_of_mem_ofMediaTypes h
  | mediaType | queryString => exact isPart_of_mem_ofPayload h
  | property | parameter =>
    rcases h with h | h
    · exact isPart_of_mem_ofType h
    · exact isPart_of_mem_ofExamples h
  | sample | dataType => exact h.elim

theorem isPart_of_mem_inner (hdocument : site.kind ≠ .document)
    (hlibrary : ∀ identifier, site.kind ≠ .library identifier) (h : inside ∈ site.inner) :
    inside.kind.isPart = true := by
  obtain ⟨source, entries, -, h⟩ := h
  exact isPart_of_mem_ofEntries hdocument hlibrary h

/-- The error of a part is told without a name. -/
theorem isWrapped_of_isPart {error : Error} (hpart : site.kind.isPart = true)
    (h : site.result = .error error) : error.isWrapped = false := by
  induction site using wellFounded_inner.induction generalizing error with
  | _ site ih =>
    by_cases hkind : site.kind = .dataType
    · obtain ⟨kind, source, tree⟩ := site
      obtain rfl := hkind
      rcases DataType.error_cases_of_ofTree? (result_dataType_eq_error_iff.1 h) with
        hmisfit | ⟨tag, -, rfl⟩
      · exact Error.isWrapped_of_isOrdinary (Error.isOrdinary_of_isMisfit hmisfit)
      · rfl
    · obtain ⟨cause, rfl, hcause⟩ := error_cases hkind h
      rw [SiteKind.tell_of_isPart hpart]
      rcases hcause with hordinary | ⟨inside, hinside, hresult⟩
      · exact Error.isWrapped_of_isOrdinary hordinary
      · have hdocument : site.kind ≠ .document := fun heq => by
          rw [heq] at hpart
          cases hpart
        have hlibrary : ∀ identifier, site.kind ≠ .library identifier := fun identifier heq => by
          rw [heq] at hpart
          cases hpart
        exact ih inside hinside (isPart_of_mem_inner hdocument hlibrary hinside) hresult

/-! ## Where reading stops -/

/-- A site declares a name: an entry with that key in the block for declarations of the kind. -/
def Declares (outer : Site) (kind : NodeKind) (name : String) (inside : Site) : Prop :=
  ∃ source entries, (outer.kind.follow outer.source outer.tree).result =
      .ok (source, .mapping entries) ∧
    inside ∈ atBlock source entries kind.field kind.site ∧ inside.kind = kind.site name

/-- Reading goes from a site through the libraries with some names, each used by the one before, and
stops at the last of them. -/
inductive StopsThrough : Site → List String → Site → Prop
  | here (site : Site) : StopsThrough site [] site
  | use {outer used last : Site} {name : String} {names : List String}
    (hdeclares : outer.Declares .library name used) (hstops : outer.StopsAt used)
    (h : StopsThrough used names last) : StopsThrough outer (name :: names) last

/-- An error at a root is a cause that arises behind some names: reading goes through the libraries
and stops in the last of them, at the declaration if there is one, else with the cause itself. -/
structure Arises (root : Site) (names : Names) (cause : Error) : Prop where
  plain : cause.isWrapped = false
  stops : ∃ library, root.StopsThrough names.libraries library ∧
    match names.declaration? with
    | none => library.result = .error (library.kind.tell cause)
    | some (kind, name) => kind ≠ .library ∧ ∃ inside, library.Declares kind name inside ∧
        library.StopsAt inside ∧ inside.result = .error (.failed kind name cause)

/-- A site in a document or a library is a part or has a name that is declared there. -/
theorem isPart_or_declares {origin : Source}
    (hkind : kind = .document ∨ ∃ identifier, kind = .library identifier)
    (h : inside ∈ ofEntries origin entries kind) :
    inside.kind.isPart = true ∨ ∃ named : NodeKind, ∃ name, inside.kind = named.site name ∧
      inside ∈ atBlock origin entries named.field named.site := by
  have hnamed (named : NodeKind) (h : inside ∈ atBlock origin entries named.field named.site) :
      ∃ named : NodeKind, ∃ name, inside.kind = named.site name ∧
        inside ∈ atBlock origin entries named.field named.site := by
    obtain ⟨tree, slot, declared, -, -, -, entry, -, hsome, -⟩ := id h
    obtain ⟨name, -, hname⟩ := Option.map_eq_some_iff.1 hsome
    exact ⟨named, name, hname.symm, h⟩
  have hdeclarations (h : inside ∈ ofDeclarations origin entries) :
      inside.kind.isPart = true ∨ ∃ named : NodeKind, ∃ name, inside.kind = named.site name ∧
        inside ∈ atBlock origin entries named.field named.site := by
    rcases h with (((h | h) | h) | h) | h
    · exact .inl (isPart_of_mem_atBlock (fun _ => rfl) h)
    · exact .inr (hnamed .trait h)
    · exact .inr (hnamed .resourceType h)
    · exact .inr (hnamed .annotationType h)
    · exact .inr (hnamed .securityScheme h)
  rcases hkind with rfl | ⟨identifier, rfl⟩
  · rcases h with ((h | h) | h) | h
    · exact hdeclarations h
    · exact .inr (hnamed .library h)
    · exact .inl (isPart_of_mem_ofResources h)
    · exact .inl (isPart_of_mem_atBlock (fun _ => rfl) h)
  · rcases h with h | h
    · exact hdeclarations h
    · exact .inr (hnamed .library h)

/-- The error of a named declaration that is no library is told with its name only. -/
theorem exists_cause_of_named {named : NodeKind} {name : String} {error : Error}
    (hkind : site.kind = named.site name) (hlibrary : named ≠ .library)
    (h : site.result = .error error) :
    ∃ cause, error = .failed named name cause ∧ cause.isWrapped = false := by
  have hnot : site.kind ≠ .dataType ∧ site.kind ≠ .document ∧
      ∀ identifier, site.kind ≠ .library identifier := by
    rw [hkind]
    cases named <;> simp [NodeKind.site] at hlibrary ⊢
  obtain ⟨cause, rfl, hcause⟩ := error_cases hnot.1 h
  refine ⟨cause, by rw [hkind, NodeKind.tell_site], ?_⟩
  rcases hcause with hordinary | ⟨inside, hinside, hresult⟩
  · exact Error.isWrapped_of_isOrdinary hordinary
  · exact isWrapped_of_isPart (isPart_of_mem_inner hnot.2.1 hnot.2.2 hinside) hresult

/-- The error of a document or a library is told with the names that lead to where reading stops. -/
theorem exists_names {error : Error}
    (hkind : site.kind = .document ∨ ∃ identifier, site.kind = .library identifier)
    (h : site.result = .error error) :
    ∃ names cause, error = site.kind.tell (names.tell cause) ∧ site.Arises names cause := by
  induction site using wellFounded_inner.induction generalizing error with
  | _ site ih =>
    have hdataType : site.kind ≠ .dataType := by
      rcases hkind with heq | ⟨identifier, heq⟩ <;> rw [heq] <;> exact SiteKind.noConfusion
    obtain ⟨cause, rfl, hcause⟩ := error_cases hdataType h
    have hhere (hplain : cause.isWrapped = false) : ∃ names cause',
        site.kind.tell cause = site.kind.tell (names.tell cause') ∧ site.Arises names cause' :=
      ⟨⟨[], none⟩, cause, rfl, hplain, site, .here site, h⟩
    rcases hcause with hordinary | ⟨inside, hinside, hresult⟩
    · exact hhere (Error.isWrapped_of_isOrdinary hordinary)
    · have hstops : site.StopsAt inside := ⟨hinside, cause, hresult, h⟩
      obtain ⟨origin, entries, hfollow, hmem⟩ := id hinside
      rcases isPart_or_declares hkind hmem with hpart | ⟨named, name, hname, hblock⟩
      · exact hhere (isWrapped_of_isPart hpart hresult)
      · have hdeclares : site.Declares named name inside := ⟨origin, entries, hfollow, hblock, hname⟩
        by_cases hlibrary : named = .library
        · subst hlibrary
          obtain ⟨names, cause', rfl, harises⟩ := ih inside hinside (.inr ⟨name, hname⟩) hresult
          obtain ⟨library, hthrough, hlast⟩ := harises.stops
          refine ⟨names.inside name, cause', ?_, harises.plain, library,
            .use hdeclares hstops hthrough, hlast⟩
          rw [hname]
          rfl
        · obtain ⟨cause', rfl, hplain⟩ := exists_cause_of_named hname hlibrary hresult
          exact ⟨⟨[], some (named, name)⟩, cause', rfl, hplain, site, .here site, hlibrary, inside,
            hdeclares, hstops, hresult⟩

end Site

namespace Document

/-- The site of the document in a text, if the text has a tree. -/
def rootSites (source : Source) (text : List Char) : Set Site :=
  {site | ∃ tree, (Fixup.readTree source.context.options text).result = .ok tree ∧
    site = ⟨.document, source, tree⟩}

/-- An error is a cause told with the names behind which it arises, and the issue that is reported
for it tells the code of the cause beside its own if there is a name. -/
structure Accounted (roots : Set Site) (error : Error) (names : Names) (cause : Error) : Prop where
  told : error = names.tell cause
  plain : cause.isWrapped = false
  arises : names.isEmpty = false → ∃ root ∈ roots, root.Arises names cause
  root : error.rootCause = cause
  code : error.code = "E2030" ↔ names.isEmpty = false
  issueCode : (Command.Issue.ofError error).code = error.code
  issueMessage : (Command.Issue.ofError error).code ++ ": " ++
    (Command.Issue.ofError error).message = error.message
  issueCause : (Command.Issue.ofError error).cause = if names.isEmpty then none else some cause.code

section

variable {roots : Set Site} {names : Names} {cause error : Error} {source : Source}
  {text : List Char}

theorem accounted_tell (hplain : cause.isWrapped = false)
    (harises : names.isEmpty = false → ∃ root ∈ roots, root.Arises names cause) :
    Accounted roots (names.tell cause) names cause where
  told := rfl
  plain := hplain
  arises := harises
  root := Names.rootCause_tell hplain
  code := by rw [Error.code_eq_iff, Names.isWrapped_tell hplain, Bool.not_eq_true']
  issueCode := rfl
  issueMessage := Command.Issue.code_append_message _
  issueCause := Names.causeCode?_tell hplain

/-- An error that is told without a name is its own cause. -/
theorem accounted_of_plain (h : error.isWrapped = false) :
    ∃ names cause, Accounted roots error names cause := by
  refine ⟨⟨[], none⟩, error, ?_⟩
  exact @accounted_tell roots ⟨[], none⟩ error h fun hnames => by cases hnames

theorem accounted_of_ofText (h : (ofText source text).result = .error error) :
    ∃ names cause, Accounted (rootSites source text) error names cause := by
  cases hheader : Header.checkRoot text with
  | error cause =>
    obtain rfl := Except.error.inj ((result_ofText_of_header hheader).symm.trans h)
    exact accounted_of_plain (Error.isWrapped_of_isOrdinary (Header.ordinary_checkRoot _ _ hheader))
  | ok =>
    cases htree : (Fixup.readTree source.context.options text).result with
    | error cause =>
      obtain rfl := Except.error.inj ((result_ofText_of_refused hheader htree).symm.trans h)
      exact accounted_of_plain (Error.isWrapped_of_isOrdinary (Fixup.ordinary_readTree _ _ _ htree))
    | ok tree =>
      by_cases hfree : source.context.file = none → IncludeFree tree
      · rw [result_ofText_of_accepted hheader htree hfree] at h
        have hsite : (⟨.document, source, tree⟩ : Site).result =
            (some ∘ .document) <$> (ofTree source tree).result := Site.result_of_unnamed rfl rfl
        have hdocument : (⟨.document, source, tree⟩ : Site).result = .error error := by
          rw [hsite, h]
          rfl
        obtain ⟨names, cause, rfl, harises⟩ := Site.exists_names (.inl rfl) hdocument
        exact ⟨names, cause, accounted_tell harises.plain fun _ => ⟨_, ⟨tree, htree, rfl⟩, harises⟩⟩
      · rw [Classical.not_imp] at hfree
        obtain ⟨target, htarget⟩ := Option.ne_none_iff_exists'.1 hfree.2
        have hbarred := result_ofText_of_directive source hfree.1 hheader htree htarget
        obtain rfl := Except.error.inj (hbarred.symm.trans h)
        exact accounted_of_plain rfl

end

/-- Every error of a document in memory or in a file is told with the names of libraries and at most
one other declaration, the keys that lead from the root of the document to where reading stops. -/
theorem error_accounted (text : String) (options : Options) (files : FileSystem) (path : Path) :
    (∀ error, (ofString text options).result = .error error → ∃ names cause,
      Accounted (rootSites ⟨.empty, .detached options⟩ text.toList) error names cause) ∧
    ∀ error, (ofFile files path options).result = .error error → ∃ names cause,
      Accounted {site | ∃ text, files.load path = .ok text ∧
        site ∈ rootSites ⟨files, .forFile files path options⟩ text.toList} error names cause := by
  refine ⟨fun error h => accounted_of_ofText h, fun error h => ?_⟩
  unfold ofFile at h
  rw [Reading.result_bind, Reading.result_monadLift] at h
  cases hload : files.load path with
  | error cause =>
    rw [hload] at h
    obtain rfl := Except.error.inj h
    exact accounted_of_plain (Error.isWrapped_of_isOrdinary (files.ordinary_load path _ hload))
  | ok text =>
    rw [hload] at h
    obtain ⟨names, cause, haccounted⟩ := accounted_of_ofText h
    refine ⟨names, cause, { haccounted with arises := fun hnames => ?_ }⟩
    obtain ⟨root, hroot, harises⟩ := haccounted.arises hnames
    exact ⟨root, ⟨text, rfl, hroot⟩, harises⟩

/-- A trait that is a number, where only a mapping can be read. -/
def pageEntries : Entries := [(.string "page", .number (.integer 1))]

/-- A library with this trait. -/
def pagesEntries : Entries := [(.string "traits", .mapping pageEntries)]

/-- A document that uses the library. -/
def usersEntries : Entries :=
  [(.string "title", .string "Users"),
    (.string "uses", .mapping [(.string "lib", .mapping pagesEntries)])]

/-- Its text. -/
def usersText : String := "#%RAML 1.0\ntitle: Users\nuses:\n lib:\n  traits:\n   page: 1\n"

/-- The error of the trait. -/
def pageError : Error := .failed .trait "page" (.wrongKind "page" "a mapping" "number")

theorem result_readAll_pages (source : Source) :
    (TraitDefinition.readAll source (some (.mapping pageEntries))).result = .error pageError := by
  change (source.openBlock _ >>= _).result = _
  rw [Source.openBlock_of_inline rfl]
  rfl

theorem result_readInPlace_pages (source : Source) :
    (Library.readInPlace source "lib" (.mapping pagesEntries)).result = .error pageError := by
  have htraits : Entries.field? pagesEntries "traits" = some (.mapping pageEntries) := rfl
  have habsent : ∀ key, key ≠ "traits" → Entries.field? pagesEntries key = none := by
    intro key hkey
    simp [pagesEntries, Entries.field?, Entries.get?, hkey.symm]
  rw [Library.readInPlace]
  simp [Library.ofEntries, Declarations.readOfLibrary, Field.text, habsent, htraits,
    result_readAll_pages, TypeDeclaration.readAll, ResourceType.readAll, readFragments, readBlock]
  rfl

theorem result_readUses_users (source : Source) :
    (Library.readUses source usersEntries).result = .error (.failed .library "lib" pageError) := by
  have hread : (Library.read source "lib" (.mapping pagesEntries)).result = .error pageError := by
    rw [Library.read]
    split
    next h => cases h
    next => exact result_readInPlace_pages source
  rw [Library.readUses]
  split
  next h => cases h
  next tree h =>
    obtain rfl := Option.some.inj h
    rw [Source.openBlock_of_inline rfl]
    change (Library.readContent source (.mapping _)).result = _
    rw [Library.readContent, Reading.result_map, Library.readEntries]
    change _ <$> ((Library.read source "lib" (.mapping pagesEntries)).mapError _ >>= _).result = _
    rw [Reading.result_bind, Reading.result_mapError, hread]
    rfl

theorem result_ofTree_users (source : Source) :
    (ofTree source (.mapping usersEntries)).result = .error (.failed .library "lib" pageError) := by
  have htitle : Entries.field? usersEntries "title" = some (.string "Users") := rfl
  have habsent : ∀ key, key ≠ "title" → key ≠ "uses" → Entries.field? usersEntries key = none := by
    intro key htitle huses
    simp [usersEntries, Entries.field?, Entries.get?, htitle.symm, huses.symm]
  have hinclude : isInclude (.string "Users") = false := by decide
  simp [ofTree, ofEntries, Field.text, htitle, habsent, hinclude, result_readUses_users,
    Field.string, Field.of, scalarText?, Parameter.readOfUri, readBlock, Protocol.readAll,
    Field.strings, Chapter.readAll, Declarations.readOfDocument, TypeDeclaration.readAll,
    TraitDefinition.readAll, ResourceType.readAll, AnnotationType.readAll, SecurityScheme.readAll,
    readFragments, readSecuredBy, readUsages, Reading.lift]
  rfl

theorem result_readTree_users :
    (Fixup.readTree {} usersText.toList).result = .ok (.mapping usersEntries) := by
  unfold usersEntries pagesEntries pageEntries
  cbv

/-- The error of a trait in a library is told with both names. -/
theorem error_accounted_users :
    (ofString usersText).result = .error (.failed .library "lib" pageError) ∧
      ∃ names cause, Accounted (rootSites ⟨.empty, .detached {}⟩ usersText.toList)
        (.failed .library "lib" pageError) names cause := by
  have hheader : Header.checkRoot usersText.toList = .ok () := by cbv
  have hfree : IncludeFree (.mapping usersEntries) := by
    unfold IncludeFree
    decide
  have hresult : (ofString usersText).result = .error (.failed .library "lib" pageError) :=
    (result_ofText_of_tree ⟨.empty, .detached {}⟩ hheader result_readTree_users
      hfree).trans (result_ofTree_users _)
  exact ⟨hresult, (error_accounted usersText {} .empty ⟨"api.raml"⟩).1 _ hresult⟩

end Document

end RamlDoc
