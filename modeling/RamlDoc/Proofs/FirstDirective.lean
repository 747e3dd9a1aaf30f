import Mathlib.Data.List.Lex
import RamlDoc.Include.Directive

/-!
# The first include directive of a tree

A position in a tree is a list of steps: which item of a sequence, which value of a mapping, or what
a tag is attached to. The lexicographic order of positions is the order of the document, a node
before its parts. The search for a directive finds the one at the first position that holds one
(`firstInclude?_eq_some_iff`) and finds none exactly when no position holds one
(`firstInclude?_eq_none_iff`).
-/

namespace RamlDoc

open Yaml

/-- A value is an include directive: a text with the tag, or a text that spells the directive
out. -/
inductive Directive : Tree → String → Prop
  | tagged {value : Tree} {text : String} (h : value.asString? = some text) :
    Directive (.tagged includeTag value) (Text.trimmed text)
  | spelled {blank : Char} {rest : List Char} (h : Text.isBlank blank) :
    Directive (.string (String.ofList (includeWord ++ blank :: rest)))
      (String.ofList (Text.trim (blank :: rest)))

theorem spelledTarget?_eq_some_iff {text target : String} :
    spelledTarget? text = some target ↔ ∃ blank rest, Text.isBlank blank ∧
      text = String.ofList (includeWord ++ blank :: rest) ∧
        target = String.ofList (Text.trim (blank :: rest)) := by
  simp only [spelledTarget?, Option.bind_eq_some_iff, Text.afterStart?_eq_some]
  constructor
  · rintro ⟨rest, htext, h⟩
    split at h
    next hblank =>
      cases rest with
      | nil => simp at hblank
      | cons blank rest =>
        refine ⟨blank, rest, by simpa using hblank, ?_, by simpa using h.symm⟩
        rw [← htext, String.ofList_toList]
    next => cases h
  · rintro ⟨blank, rest, hblank, rfl, rfl⟩
    exact ⟨blank :: rest, by simp, by simp [hblank]⟩

/-- The target that the code reads off a value is that of the directive it is. -/
theorem includeTarget?_eq_some_iff {tree : Tree} {target : String} :
    includeTarget? tree = some target ↔ Directive tree target := by
  constructor
  · intro h
    cases tree with
    | tagged tag value =>
      simp only [includeTarget?] at h
      split at h
      next htag =>
        subst htag
        obtain ⟨text, htext, rfl⟩ := Option.map_eq_some_iff.1 h
        exact .tagged htext
      next => cases h
    | string text =>
      obtain ⟨blank, rest, hblank, rfl, rfl⟩ := spelledTarget?_eq_some_iff.1 h
      exact .spelled hblank
    | _ => simp [includeTarget?] at h
  · intro h
    cases h with
    | tagged h => simp [includeTarget?, h]
    | spelled h => exact spelledTarget?_eq_some_iff.2 ⟨_, _, h, rfl, rfl⟩

namespace Yaml.Tree

/-- The trees directly inside a tree, keys apart. -/
def parts : Tree → List Tree
  | .sequence items => items
  | .mapping entries => entries.map Prod.snd
  | .tagged _ value => [value]
  | .null | .bool _ | .number _ | .string _ => []

/-- What stands at a position of a tree. -/
def at? (tree : Tree) : (position : List Nat) → Option Tree
  | [] => some tree
  | step :: position => tree.parts[step]?.bind fun part => part.at? position

theorem sizeOf_lt_of_mem_parts {tree part : Tree} (h : part ∈ tree.parts) :
    sizeOf part < sizeOf tree := by
  cases tree with
  | sequence items =>
    have := List.sizeOf_lt_of_mem (show part ∈ items from h)
    simp only [sequence.sizeOf_spec]
    omega
  | mapping entries =>
    obtain ⟨⟨key, value⟩, hentry, rfl⟩ := List.mem_map.1 h
    have := List.sizeOf_lt_of_mem hentry
    simp only [mapping.sizeOf_spec, Prod.mk.sizeOf_spec] at *
    omega
  | tagged tag value =>
    obtain rfl := List.mem_singleton.1 h
    simp only [tagged.sizeOf_spec]
    omega
  | _ => cases h

/-- What holds of a tree whenever it holds of its parts holds of every tree. -/
theorem induction_on_parts {P : Tree → Prop}
    (step : ∀ tree, (∀ part ∈ tree.parts, P part) → P tree) (tree : Tree) : P tree :=
  step tree fun part h => have := sizeOf_lt_of_mem_parts h; induction_on_parts step part
termination_by sizeOf tree

end Yaml.Tree

/-! ## The search as a walk over positions -/

theorem firstIncludeOfItems?_eq (items : List Tree) :
    firstIncludeOfItems? items = items.findSome? firstInclude? := by
  induction items with
  | nil => rfl
  | cons item items ih =>
    rw [firstIncludeOfItems?, ih, List.findSome?_cons]
    cases firstInclude? item <;> rfl

theorem firstIncludeOfEntries?_eq (entries : Entries) :
    firstIncludeOfEntries? entries = (entries.map Prod.snd).findSome? firstInclude? := by
  induction entries with
  | nil => rfl
  | cons entry entries ih =>
    rw [firstIncludeOfEntries?, ih, List.map_cons, List.findSome?_cons]
    cases firstInclude? entry.2 <;> rfl

/-- The search looks at the tree itself, then at its parts in order. -/
theorem firstInclude?_eq (tree : Tree) :
    firstInclude? tree = (includeTarget? tree).or (tree.parts.findSome? firstInclude?) := by
  cases tree with
  | sequence items => exact firstIncludeOfItems?_eq items
  | mapping entries => exact firstIncludeOfEntries?_eq entries
  | tagged tag value =>
    rw [firstInclude?, Tree.parts, List.findSome?_cons]
    cases firstInclude? value <;> rfl
  | string text => simp [firstInclude?, includeTarget?, Tree.parts]
  | _ => rfl

/-- No directive is found exactly when no position holds one. -/
theorem firstInclude?_eq_none_iff {tree : Tree} :
    firstInclude? tree = none ↔
      ∀ position node, tree.at? position = some node → includeTarget? node = none := by
  induction tree using Tree.induction_on_parts with
  | step tree ih =>
    rw [firstInclude?_eq, Option.or_eq_none_iff, List.findSome?_eq_none_iff]
    constructor
    · rintro ⟨hself, hparts⟩ position node hnode
      cases position with
      | nil =>
        obtain rfl := Option.some.inj hnode
        exact hself
      | cons step position =>
        obtain ⟨part, hpart, hnode⟩ := Option.bind_eq_some_iff.1 hnode
        have hmem := List.mem_of_getElem? hpart
        exact (ih part hmem).1 (hparts part hmem) position node hnode
    · intro h
      refine ⟨h [] tree rfl, fun part hpart => (ih part hpart).2 fun position node hnode => ?_⟩
      obtain ⟨step, hstep⟩ := List.getElem?_of_mem hpart
      exact h (step :: position) node (Option.bind_eq_some_iff.2 ⟨part, hstep, hnode⟩)

/-- A target is that of the directive at the first position that holds one. -/
def IsFirstDirective (tree : Tree) (target : String) : Prop :=
  ∃ position node, tree.at? position = some node ∧ Directive node target ∧
    ∀ earlier < position, ∀ other, tree.at? earlier = some other → ∀ text, ¬Directive other text

theorem not_directive_of_includeTarget? {tree : Tree} (h : includeTarget? tree = none)
    (target : String) : ¬Directive tree target := by
  intro hdirective
  rw [includeTarget?_eq_some_iff.2 hdirective] at h
  cases h

/-- The first directive of a tree is unique. -/
theorem IsFirstDirective.unique {tree : Tree} {first second : String}
    (hfirst : IsFirstDirective tree first) (hsecond : IsFirstDirective tree second) :
    first = second := by
  obtain ⟨p, node, hnode, hdirective, hbefore⟩ := hfirst
  obtain ⟨q, other, hother, hdirective', hbefore'⟩ := hsecond
  rcases lt_trichotomy p q with hlt | rfl | hlt
  · exact absurd hdirective (hbefore' p hlt node hnode first)
  · obtain rfl := Option.some.inj (hnode.symm.trans hother)
    exact Option.some.inj ((includeTarget?_eq_some_iff.2 hdirective).symm.trans
      (includeTarget?_eq_some_iff.2 hdirective'))
  · exact absurd hdirective' (hbefore q hlt other hother second)

theorem isFirstDirective_of_firstInclude? {tree : Tree} {target : String}
    (h : firstInclude? tree = some target) : IsFirstDirective tree target := by
  induction tree using Tree.induction_on_parts generalizing target with
  | step tree ih =>
    rw [firstInclude?_eq, Option.or_eq_some_iff] at h
    rcases h with h | ⟨hself, hparts⟩
    · exact ⟨[], tree, rfl, includeTarget?_eq_some_iff.1 h, by simp⟩
    obtain ⟨before, part, after, hsplit, hpart, hnone⟩ := List.findSome?_eq_some_iff.1 hparts
    obtain ⟨position, node, hnode, hdirective, hbefore⟩ := ih part (by simp [hsplit]) hpart
    have hstep : tree.parts[before.length]? = some part := by simp [hsplit]
    refine ⟨before.length :: position, node, Option.bind_eq_some_iff.2 ⟨part, hstep, hnode⟩,
      hdirective, fun earlier hlt other hother => ?_⟩
    cases earlier with
    | nil =>
      obtain rfl := Option.some.inj hother
      exact not_directive_of_includeTarget? hself
    | cons step earlier =>
      obtain ⟨part', hpart', hinside⟩ := Option.bind_eq_some_iff.1 hother
      rcases List.cons_lt_cons_iff.1 hlt with hstep' | ⟨rfl, hposition⟩
      · -- an earlier part holds no directive at all
        rw [hsplit, List.getElem?_append_left hstep'] at hpart'
        have hfree := firstInclude?_eq_none_iff.1 (hnone part' (List.mem_of_getElem? hpart'))
        exact not_directive_of_includeTarget? (hfree earlier other hinside)
      · obtain rfl := Option.some.inj (hpart'.symm.trans hstep)
        exact hbefore earlier hposition other hinside

/-- The search finds the directive at the first position that holds one. -/
theorem firstInclude?_eq_some_iff {tree : Tree} {target : String} :
    firstInclude? tree = some target ↔ IsFirstDirective tree target := by
  refine ⟨isFirstDirective_of_firstInclude?, fun hfirst => ?_⟩
  cases hfound : firstInclude? tree with
  | none =>
    obtain ⟨position, node, hnode, hdirective, -⟩ := hfirst
    have := firstInclude?_eq_none_iff.1 hfound position node hnode
    exact absurd hdirective (not_directive_of_includeTarget? this target)
  | some found => rw [(isFirstDirective_of_firstInclude? hfound).unique hfirst]

end RamlDoc
