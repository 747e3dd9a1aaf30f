import RamlDoc.Defaults.Document
import RamlDoc.Proofs.WrittenTemplates

/-!
# Parameters for template names

Defaults give every template name a parameter. The declared ones come first, in their order, and one
is added for each name that none of them has, where the name stands first (`blockForTemplate_eq`).
So every name has a parameter (`exists_mem_blockForTemplate`), and a second time none is added
(`blockForTemplate_blockForTemplate`). The loop looks names up in the list that it extends; what it
adds is known by the names that were there before (`mem_missingNames_iff`) and by their order
(`inOrderOf_missingNames`), which fixes the defaulted list of every resource and document
(`withDefaults_completes`).
-/

namespace RamlDoc

theorem Block.ofList_eq_none_iff {α : Type} {items : List α} :
    Block.ofList items = none ↔ items = [] := by
  cases items <;> simp [Block.ofList]

namespace Parameter

/-! ## Names without a parameter -/

/-- The names that no known one is, each where it stands first. -/
def missingNames : (known names : List String) → List String
  | _, [] => []
  | known, name :: names =>
    if name ∈ known then missingNames known names
    else name :: missingNames (known ++ [name]) names

variable {known names missing : List String} {first name : String}

theorem mem_missingNames_iff : name ∈ missingNames known names ↔ name ∈ names ∧ name ∉ known := by
  induction names generalizing known with
  | nil => simp [missingNames]
  | cons first names ih =>
    rw [missingNames]
    by_cases hfirst : first ∈ known
    · rw [if_pos hfirst, ih, List.mem_cons]
      refine and_congr_left fun hknown => (or_iff_right ?_).symm
      rintro rfl
      exact hknown hfirst
    · rw [if_neg hfirst, List.mem_cons, List.mem_cons, ih, List.mem_append, List.mem_singleton]
      by_cases heq : name = first
      · simp [heq, hfirst]
      · simp [heq]

theorem missingNames_eq_nil (h : ∀ name ∈ names, name ∈ known) : missingNames known names = [] :=
  List.eq_nil_iff_forall_not_mem.2 fun name hname =>
    have ⟨hmem, hknown⟩ := mem_missingNames_iff.1 hname
    hknown (h name hmem)

/-- Every name is known or missing. -/
theorem mem_or_mem_missingNames (h : name ∈ names) :
    name ∈ known ∨ name ∈ missingNames known names :=
  (Decidable.em _).imp_right fun hknown => mem_missingNames_iff.2 ⟨h, hknown⟩

/-- Names stand in the order in which they first occur in others. -/
def InOrderOf (names missing : List String) : Prop :=
  missing.Pairwise fun earlier later => names.idxOf earlier < names.idxOf later

namespace InOrderOf

theorem nodup (h : InOrderOf names missing) : missing.Nodup :=
  List.Pairwise.imp (fun hlt heq => by rw [heq] at hlt; exact Nat.lt_irrefl _ hlt) h

/-- A name in front of the others moves the rest by one place. -/
theorem cons_left (h : InOrderOf names missing) (hne : first ∉ missing) :
    InOrderOf (first :: names) missing := by
  have hmoved : ∀ name ∈ missing, (first :: names).idxOf name = names.idxOf name + 1 := by
    intro name hname
    have hfirst : first ≠ name := fun heq => hne (heq ▸ hname)
    rw [List.idxOf_cons, beq_false_of_ne hfirst, cond_false]
  refine List.Pairwise.imp_of_mem (fun hearlier hlater hlt => ?_) h
  rw [hmoved _ hearlier, hmoved _ hlater]
  exact Nat.add_lt_add_right hlt 1

/-- The name in front comes before all that are in order behind it. -/
theorem cons (h : InOrderOf names missing) (hne : first ∉ missing) :
    InOrderOf (first :: names) (first :: missing) := by
  refine List.pairwise_cons.2 ⟨fun name hname => ?_, h.cons_left hne⟩
  have hfirst : first ≠ name := fun heq => hne (heq ▸ hname)
  rw [List.idxOf_cons_self, List.idxOf_cons, beq_false_of_ne hfirst]
  exact Nat.succ_pos _

end InOrderOf

theorem inOrderOf_missingNames (known names : List String) :
    InOrderOf names (missingNames known names) := by
  induction names generalizing known with
  | nil => exact List.Pairwise.nil
  | cons first names ih =>
    rw [missingNames]
    by_cases hfirst : first ∈ known
    · rw [if_pos hfirst]
      exact (ih known).cons_left fun hmem => (mem_missingNames_iff.1 hmem).2 hfirst
    · rw [if_neg hfirst]
      exact (ih _).cons fun hmem =>
        (mem_missingNames_iff.1 hmem).2 (List.mem_append_right _ List.mem_cons_self)

/-! ## Parameters that are added -/

variable {declared : Block Parameter}

/-- The parameters that defaults add for template names. -/
def added (declared : Block Parameter) (names : List String) : List Parameter :=
  (missingNames (declared.elements.map (·.name)) names).map ofTemplateName

theorem complete_eq (parameters : List Parameter) (names : List String) :
    complete parameters names =
      parameters ++ (missingNames (parameters.map (·.name)) names).map ofTemplateName := by
  induction names generalizing parameters with
  | nil => simp [complete, missingNames]
  | cons name names ih =>
    have hmem : (parameters.any fun parameter => parameter.name = name) = true ↔
        name ∈ parameters.map (·.name) := by simp
    rw [complete, missingNames]
    by_cases h : name ∈ parameters.map (·.name)
    · rw [if_pos (hmem.2 h), if_pos h, ih]
    · rw [if_neg (mt hmem.1 h), if_neg h, ih, List.map_append, List.map_cons, List.append_assoc]
      rfl

/-- The declared parameters come first and the added ones follow, all with their defaults. -/
theorem blockForTemplate_eq (declared : Block Parameter) (names : List String) :
    blockForTemplate declared names =
      Block.ofList ((declared.elements ++ added declared names).map withDefaults) := by
  rw [blockForTemplate, complete_eq, List.map_append, added]
  simp [Function.comp_def]

theorem elements_blockForTemplate (declared : Block Parameter) (names : List String) :
    (blockForTemplate declared names).elements =
      (declared.elements ++ added declared names).map withDefaults := by
  rw [blockForTemplate_eq, Block.elements_ofList]

/-- Every template name has a parameter. -/
theorem exists_mem_blockForTemplate (declared : Block Parameter) (h : name ∈ names) :
    ∃ parameter ∈ (blockForTemplate declared names).elements, parameter.name = name := by
  rw [elements_blockForTemplate]
  rcases @mem_or_mem_missingNames (declared.elements.map (·.name)) _ _ h with hknown | hmissing
  · obtain ⟨parameter, hparameter, rfl⟩ := List.mem_map.1 hknown
    exact ⟨_, List.mem_map_of_mem (List.mem_append_left _ hparameter), rfl⟩
  · exact ⟨_, List.mem_map_of_mem (List.mem_append_right _ (List.mem_map_of_mem hmissing)), rfl⟩

theorem added_eq_nil
    (h : ∀ name ∈ names, ∃ parameter ∈ declared.elements, parameter.name = name) :
    added declared names = [] := by
  rw [added, missingNames_eq_nil fun name hname => List.mem_map.2 (h name hname), List.map_nil]

/-- Parameters that have been completed stay as they are. -/
theorem blockForTemplate_blockForTemplate (declared : Block Parameter) (names : List String) :
    blockForTemplate (blockForTemplate declared names) names = blockForTemplate declared names := by
  rw [blockForTemplate_eq (blockForTemplate declared names),
    added_eq_nil fun name => exists_mem_blockForTemplate declared, List.append_nil,
    elements_blockForTemplate, List.map_map, blockForTemplate_eq declared]
  congr 2
  exact funext withDefaults_withDefaults

end Parameter

namespace Resource

theorem path_withDefaults (inherited : Inherited) (resource : Resource) :
    (resource.withDefaults inherited).path = resource.path := by
  cases resource
  rw [withDefaults]

theorem uriParameters_withDefaults (inherited : Inherited) (resource : Resource) :
    (resource.withDefaults inherited).uriParameters =
      Parameter.blockForTemplate resource.uriParameters (templateNames resource.path) := by
  cases resource
  rw [withDefaults]

end Resource

namespace Parameter

/-! ## What the defaulted list is -/

/-- A list of parameters has the declared ones with their defaults, in order, and behind them a
required text for each name that none of these has, by first occurrence. -/
structure Completes (declared : Block Parameter) (names : List String)
    (completed : Block Parameter) (missing : List String) : Prop where
  elements : completed.elements =
    declared.elements.map withDefaults ++ missing.map ofTemplateName
  mem_iff : ∀ name, name ∈ missing ↔
    name ∈ names ∧ ∀ parameter ∈ declared.elements, parameter.name ≠ name
  nodup : missing.Nodup
  inOrder : InOrderOf names missing
  absent_iff : completed = none ↔ declared.elements = [] ∧ names = []

theorem completes_blockForTemplate (declared : Block Parameter) (names : List String) :
    Completes declared names (blockForTemplate declared names)
      (missingNames (declared.elements.map (·.name)) names) where
  elements := by
    rw [elements_blockForTemplate, List.map_append, added]
    simp [Function.comp_def]
  mem_iff name := by simp [mem_missingNames_iff]
  nodup := (inOrderOf_missingNames _ names).nodup
  inOrder := inOrderOf_missingNames _ names
  absent_iff := by
    rw [blockForTemplate_eq, Block.ofList_eq_none_iff, List.map_eq_nil_iff, List.append_eq_nil_iff]
    refine and_congr_right fun hdeclared => ?_
    rw [added, hdeclared, List.map_nil, List.map_eq_nil_iff]
    cases names <;> simp [missingNames]

theorem exists_completes (declared : Block Parameter) (text : String) :
    ∃ template : UriTemplate, ∃ missing, template.text = text ∧
      Completes declared (template.names.filter (· ≠ ""))
        (blockForTemplate declared (templateNames text)) missing := by
  obtain ⟨template, rfl⟩ := UriTemplate.exists_text_eq text
  have hcompletes := completes_blockForTemplate declared (templateNames template.text)
  rw [template.templateNames_eq] at hcompletes ⊢
  exact ⟨template, _, rfl, hcompletes⟩

/-- Defaults complete the parameters of every resource for the names of its own path and those of
every document for the names of its base URI, whatever is inherited. A second time they add
nothing. -/
theorem withDefaults_completes (inherited inherited' : Inherited) :
    (∀ resource : Resource,
      (∃ template : UriTemplate, ∃ missing, template.text = resource.path ∧
        Completes resource.uriParameters (template.names.filter (· ≠ ""))
          (resource.withDefaults inherited).uriParameters missing) ∧
      ((resource.withDefaults inherited).withDefaults inherited').uriParameters =
        (resource.withDefaults inherited).uriParameters) ∧
    ∀ document : Document,
      (∃ template : UriTemplate, ∃ missing, template.text = document.baseUri.getD "" ∧
        Completes document.baseUriParameters (template.names.filter (· ≠ ""))
          (document.withDefaults inherited).baseUriParameters missing) ∧
      ((document.withDefaults inherited).withDefaults inherited').baseUriParameters =
        (document.withDefaults inherited).baseUriParameters := by
  constructor
  · intro resource
    rw [Resource.uriParameters_withDefaults, Resource.uriParameters_withDefaults,
      Resource.uriParameters_withDefaults, Resource.path_withDefaults]
    exact ⟨exists_completes _ _, blockForTemplate_blockForTemplate _ _⟩
  · exact fun document => ⟨exists_completes _ _, blockForTemplate_blockForTemplate _ _⟩

/-- The parameter that is declared stays in front; one is added for each other name of the path. -/
example : (blockForTemplate (some [{ name := "item" }])
    (templateNames "/\x7bid\x7d/\x7bitem\x7d/\x7b\x7d/\x7bunit\x7d/\x7bid\x7d")).elements.map
      (·.name) = ["item", "id", "unit"] := by
  decide +kernel

end Parameter

end RamlDoc
