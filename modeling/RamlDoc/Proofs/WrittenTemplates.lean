import Mathlib.Logic.ExistsUnique
import RamlDoc.Model.Resource

/-!
# Written templates

A template is a list of parts, each a literal text with a name in braces behind it, and a tail in
which no opened brace is closed. Scanning the text that a template is written as gives its names
back, without the empty ones (`templateNamesOf_written`). A brace in a literal would open earlier
and one in a name would close earlier, so the parts are found where they were written
(`written_inj`), and the scan of any text finds some (`exists_written`). Hence the names of every
text are those of the one template that it is written from (`templateNames_text`).
-/

namespace RamlDoc

namespace UriTemplate

/-- A literal text and the name in braces behind it. -/
@[ext]
structure Part where
  literal : List Char
  name : List Char
  not_opened : '\x7b' ∉ literal
  not_closed : '\x7d' ∉ name

/-- No brace that is opened in a text is closed in it. -/
def Unclosed (tail : List Char) : Prop :=
  ∀ before after, tail = before ++ '\x7b' :: after → '\x7d' ∉ after

/-- The text of some parts and a tail. -/
def written (tail : List Char) : List Part → List Char
  | [] => tail
  | part :: parts => part.literal ++ '\x7b' :: (part.name ++ '\x7d' :: written tail parts)

end UriTemplate

/-- A text with names in braces, cut at its names. -/
@[ext]
structure UriTemplate where
  parts : List UriTemplate.Part
  tail : List Char
  unclosed : UriTemplate.Unclosed tail

namespace UriTemplate

/-- The text that a template is written as. -/
def text (template : UriTemplate) : String :=
  String.ofList (written template.tail template.parts)

/-- The names of a template, empty ones included. -/
def names (template : UriTemplate) : List String :=
  template.parts.map fun part => String.ofList part.name

variable {literal name rest tail tail' : List Char} {parts parts' : List Part}

/-! ## Scanning -/

/-- The scan goes on behind the first name. -/
theorem templateNamesOf_append (hliteral : '\x7b' ∉ literal) (hname : '\x7d' ∉ name) :
    templateNamesOf (literal ++ '\x7b' :: (name ++ '\x7d' :: rest)) =
      if name.isEmpty then templateNamesOf rest
      else String.ofList name :: templateNamesOf rest := by
  have hopened : Text.cutAt? '\x7b' (literal ++ '\x7b' :: (name ++ '\x7d' :: rest)) =
      some (literal, name ++ '\x7d' :: rest) := Text.cutAt?_eq_some.2 ⟨rfl, hliteral⟩
  have hclosed : Text.cutAt? '\x7d' (name ++ '\x7d' :: rest) = some (name, rest) :=
    Text.cutAt?_eq_some.2 ⟨rfl, hname⟩
  rw [templateNamesOf]
  split
  next hnone => cases hopened.symm.trans hnone
  next after hsome =>
    cases hopened.symm.trans hsome
    split
    next hnone => cases hclosed.symm.trans hnone
    next hsome =>
      cases hclosed.symm.trans hsome
      rfl

/-- The scan finds nothing where no brace is closed. -/
theorem templateNamesOf_of_unclosed (h : Unclosed tail) : templateNamesOf tail = [] := by
  rw [templateNamesOf]
  split
  next => rfl
  next before after hopened =>
    have hclosed : Text.cutAt? '\x7d' after = none :=
      Text.cutAt?_eq_none.2 (h before after (Text.cutAt?_eq_some.1 hopened).1)
    split
    next => rfl
    next hsome => cases hclosed.symm.trans hsome

/-- Scanning what was written gives the names back, in order and without the empty ones. -/
theorem templateNamesOf_written (h : Unclosed tail) (parts : List Part) :
    templateNamesOf (written tail parts) =
      (parts.map fun part => String.ofList part.name).filter (· ≠ "") := by
  induction parts with
  | nil => exact templateNamesOf_of_unclosed h
  | cons part parts ih =>
    rw [written, templateNamesOf_append part.not_opened part.not_closed, ih, List.map_cons]
    cases hname : part.name with
    | nil => rfl
    | cons c name =>
      rw [List.filter_cons_of_pos (by simp)]
      rfl

example : templateNames "/\x7d\x7bid\x7d\x7b\x7d/\x7bx\x7by\x7d\x7bz" = ["id", "x\x7by"] := by
  decide +kernel

/-! ## Every text is written in one way -/

theorem unclosed_cons_iff {c : Char} :
    Unclosed (c :: tail) ↔ (c = '\x7b' → '\x7d' ∉ tail) ∧ Unclosed tail := by
  constructor
  · intro h
    refine ⟨fun hopened => h [] tail (hopened ▸ rfl), fun before after heq => ?_⟩
    exact h (c :: before) after (by rw [heq, List.cons_append])
  · rintro ⟨hhead, htail⟩ before after heq
    cases before with
    | nil =>
      obtain ⟨hopened, rfl⟩ := List.cons.inj heq
      exact hhead hopened
    | cons d before => exact htail before after (List.cons.inj heq).2

theorem unclosed_of_not_opened (h : '\x7b' ∉ tail) : Unclosed tail := by
  rintro before after rfl
  exact absurd (List.mem_append_right _ List.mem_cons_self) h

theorem unclosed_of_not_closed (h : '\x7d' ∉ tail) : Unclosed tail := by
  rintro before after rfl
  exact fun hmem => h (List.mem_append_right _ (List.mem_cons_of_mem _ hmem))

/-- A brace that is opened first of all and never closed leaves the text a tail. -/
theorem unclosed_append (hliteral : '\x7b' ∉ literal) (hrest : '\x7d' ∉ rest) :
    Unclosed (literal ++ '\x7b' :: rest) := by
  induction literal with
  | nil => exact unclosed_cons_iff.2 ⟨fun _ => hrest, unclosed_of_not_closed hrest⟩
  | cons c literal ih =>
    obtain ⟨hc, hliteral⟩ := not_or.1 (mt List.mem_cons.2 hliteral)
    exact unclosed_cons_iff.2 ⟨fun heq => absurd heq.symm hc, ih hliteral⟩

/-- Every text is written from some parts and a tail. -/
theorem exists_written (cs : List Char) :
    ∃ tail parts, Unclosed tail ∧ written tail parts = cs := by
  fun_induction templateNamesOf cs with
  | case1 cs hopened =>
    exact ⟨cs, [], unclosed_of_not_opened (Text.cutAt?_eq_none.1 hopened), rfl⟩
  | case2 cs literal after hopened hclosed =>
    obtain ⟨rfl, hliteral⟩ := Text.cutAt?_eq_some.1 hopened
    exact ⟨_, [], unclosed_append hliteral (Text.cutAt?_eq_none.1 hclosed), rfl⟩
  | case3 cs literal after hopened name rest hclosed hempty ih
  | case4 cs literal after hopened name rest hclosed hempty ih =>
    obtain ⟨rfl, hliteral⟩ := Text.cutAt?_eq_some.1 hopened
    obtain ⟨rfl, hname⟩ := Text.cutAt?_eq_some.1 hclosed
    obtain ⟨tail, parts, htail, rfl⟩ := ih
    exact ⟨tail, ⟨literal, name, hliteral, hname⟩ :: parts, htail, rfl⟩

/-- A text is cut at its first name in one way only. -/
theorem part_inj {part part' : Part} {rest rest' : List Char}
    (h : part.literal ++ '\x7b' :: (part.name ++ '\x7d' :: rest) =
      part'.literal ++ '\x7b' :: (part'.name ++ '\x7d' :: rest')) :
    part = part' ∧ rest = rest' := by
  have hopened := Text.cutAt?_eq_some.2 ⟨h, part'.not_opened⟩
  rw [Text.cutAt?_eq_some.2 ⟨rfl, part.not_opened⟩, Option.some.injEq, Prod.mk.injEq] at hopened
  have hclosed := Text.cutAt?_eq_some.2 ⟨hopened.2, part'.not_closed⟩
  rw [Text.cutAt?_eq_some.2 ⟨rfl, part.not_closed⟩, Option.some.injEq, Prod.mk.injEq] at hclosed
  exact ⟨Part.ext hopened.1 hclosed.1, hclosed.2⟩

theorem written_inj (htail : Unclosed tail) (htail' : Unclosed tail')
    (h : written tail parts = written tail' parts') : parts = parts' ∧ tail = tail' := by
  -- A written part closes a brace that it opens, which no tail does.
  have hclosed : ∀ {tail rest : List Char} {part : Part}, Unclosed tail →
      tail ≠ part.literal ++ '\x7b' :: (part.name ++ '\x7d' :: rest) := fun hunclosed heq =>
    hunclosed _ _ heq (List.mem_append_right _ List.mem_cons_self)
  induction parts generalizing parts' with
  | nil =>
    cases parts' with
    | nil => exact ⟨rfl, h⟩
    | cons part' parts' => exact absurd h (hclosed htail)
  | cons part parts ih =>
    cases parts' with
    | nil => exact absurd h.symm (hclosed htail')
    | cons part' parts' =>
      obtain ⟨rfl, hrest⟩ := part_inj h
      obtain ⟨rfl, rfl⟩ := ih hrest
      exact ⟨rfl, rfl⟩

/-- Every text is that of a template. -/
theorem exists_text_eq (text : String) : ∃ template : UriTemplate, template.text = text := by
  obtain ⟨tail, parts, htail, hwritten⟩ := exists_written text.toList
  refine ⟨⟨parts, tail, htail⟩, ?_⟩
  rw [UriTemplate.text, hwritten, String.ofList_toList]

theorem text_inj {template other : UriTemplate} (h : template.text = other.text) :
    template = other := by
  rw [UriTemplate.text, UriTemplate.text, String.ofList_inj] at h
  obtain ⟨hparts, htail⟩ := written_inj template.unclosed other.unclosed h
  exact UriTemplate.ext hparts htail

/-- Scanning the text of a template finds its names that are not empty. -/
theorem templateNames_eq (template : UriTemplate) :
    templateNames template.text = template.names.filter (· ≠ "") := by
  rw [templateNames, UriTemplate.text, String.toList_ofList]
  exact templateNamesOf_written template.unclosed template.parts

/-- The names of the text of a template are those of the template that are not empty, in order, and
every text is that of exactly one template. -/
theorem templateNames_text :
    (∀ template : UriTemplate,
      templateNames template.text = template.names.filter (· ≠ "")) ∧
    ∀ text : String, ∃! template : UriTemplate, template.text = text := by
  refine ⟨templateNames_eq, fun text => ?_⟩
  obtain ⟨template, htext⟩ := exists_text_eq text
  exact ⟨template, htext, fun other hother => text_inj (hother.trans htext.symm)⟩

end UriTemplate

end RamlDoc
