import RamlDoc.Yaml.Reader

/-!
# Scalars with a comma

No number, boolean or null is written with a comma. An unquoted scalar with one is therefore the
string of its text, just as if it were quoted (`ofScalar_of_comma`), and its tree tells its text
(`ofScalar_apart`).
-/

namespace RamlDoc.Yaml

namespace Scalar

theorem digitsAfter?_eq_none {cs : List Char} (h : ',' ∈ cs) (base value : Nat) :
    digitsAfter? base value cs = none := by
  induction cs generalizing value with
  | nil => cases h
  | cons c cs ih =>
    rw [digitsAfter?]
    rcases List.mem_cons.1 h with rfl | h
    · rfl
    · split
      · split
        · exact ih h _
        · rfl
      · rfl

theorem digits?_eq_none {cs : List Char} (h : ',' ∈ cs) (base : Nat) : digits? base cs = none := by
  rw [digits?, digitsAfter?_eq_none h, ite_self]

theorem natural?_eq_none {cs : List Char} (h : ',' ∈ cs) (extraZero : Bool) :
    natural? cs extraZero = none := by
  unfold natural?
  dsimp only
  rw [digits?_eq_none h, ite_self]
  split
  next hsome =>
    split at hsome
    · rw [digits?_eq_none (by simpa using h)] at hsome
      cases hsome
    · rw [digits?_eq_none (by simpa using h)] at hsome
      cases hsome
    · rw [digits?_eq_none (by simpa using h)] at hsome
      cases hsome
    · cases hsome
  next => rfl

theorem integer?_eq_none {cs : List Char} (h : ',' ∈ cs) : integer? cs = none := by
  unfold integer?
  split
  · rw [natural?_eq_none (by simpa using h)]
    rfl
  · rw [natural?_eq_none (by simpa using h)]
    rfl
  · rw [natural?_eq_none h]
    rfl

theorem power?_eq_none {cs : List Char} (h : ',' ∈ cs) : power? cs = none := by
  unfold power?
  split
  · cases h
  next e rest =>
    split
    next he =>
      have hrest : ',' ∈ rest := by
        rcases List.mem_cons.1 h with heq | hrest
        · subst heq
          exact absurd he (by decide)
        · exact hrest
      split
      · rw [digits?_eq_none (by simpa using hrest)]
        rfl
      · rw [digits?_eq_none (by simpa using hrest)]
        rfl
      · rw [digits?_eq_none hrest]
        rfl
    next => rfl

/-- A character that `p` does not hold of is behind those that it holds of. -/
theorem mem_dropWhile {α : Type} {p : α → Bool} {a : α} {as : List α} (h : a ∈ as)
    (ha : p a = false) : a ∈ as.dropWhile p := by
  rw [← List.takeWhile_append_dropWhile (p := p) (l := as), List.mem_append] at h
  rcases h with h | h
  · have := List.all_eq_true.1 List.all_takeWhile a h
    rw [ha] at this
    cases this
  · exact h

theorem fraction?_eq_none {cs : List Char} (h : ',' ∈ cs) (negative : Bool) :
    fraction? negative cs = none := by
  have hrest := mem_dropWhile (p := Char.isDigit) h (by decide)
  unfold fraction?
  dsimp only
  split
  next hsome =>
    split at hsome
    next rest heq =>
      rw [heq] at hrest
      rw [power?_eq_none (mem_dropWhile (by simpa using hrest) (by decide))] at hsome
      cases hsome
    next =>
      rw [power?_eq_none hrest] at hsome
      cases hsome
  next => rfl

/-- A text with a comma is none of some words without one. -/
theorem not_mem_of_comma {cs : List Char} (h : ',' ∈ cs) {words : List (List Char)}
    (hwords : ∀ word ∈ words, ',' ∉ word) : cs ∉ words := fun hcs => hwords cs hcs h

theorem float?_eq_none {cs : List Char} (h : ',' ∈ cs) : float? cs = none := by
  unfold float?
  dsimp only
  split
  next rest =>
    have hrest : ',' ∈ rest := by simpa using h
    rw [if_neg (not_mem_of_comma hrest (by decide)), if_neg (not_mem_of_comma h (by decide)),
      if_neg (not_mem_of_comma h (by decide))]
    exact fraction?_eq_none hrest false
  next =>
    rw [if_neg (not_mem_of_comma h (by decide)), if_neg (not_mem_of_comma h (by decide)),
      if_neg (not_mem_of_comma h (by decide))]
    split
    · exact fraction?_eq_none (by simpa using h) true
    · exact fraction?_eq_none h false

theorem isNullText_of_comma {cs : List Char} (h : ',' ∈ cs) : isNullText cs = false :=
  decide_eq_false (not_mem_of_comma h (by decide))

theorem bool?_eq_none {cs : List Char} (h : ',' ∈ cs) : bool? cs = none := by
  rw [bool?, if_neg (not_mem_of_comma h (by decide)), if_neg (not_mem_of_comma h (by decide))]

theorem integerText_of_comma {cs : List Char} (h : ',' ∈ cs) : integerText cs = .none := by
  rw [integerText, integer?_eq_none h]

/-- An unquoted scalar with a comma is the string of its text. -/
theorem plainValue?_of_comma {cs : List Char} (h : ',' ∈ cs) :
    plainValue? cs = some (.string (String.ofList cs)) := by
  have hempty : cs.isEmpty = false := by
    cases cs with
    | nil => cases h
    | cons => rfl
  simp [plainValue?, hempty, isNullText_of_comma h, bool?_eq_none h, integerText_of_comma h,
    float?_eq_none h]

/-- Where the value of an unquoted scalar is a string, it is that of its text. -/
theorem eq_ofList_of_plainValue? {cs : List Char} {text : String}
    (h : plainValue? cs = some (.string text)) : text = String.ofList cs := by
  unfold plainValue? at h
  split at h
  · cases h
  split at h
  · cases h
  split at h
  · cases h
  · cases h
  split at h
  · cases h
  · exact (Tree.string.inj (Option.some.inj h)).symm

/-- Where the value of a scalar under a core tag is a string, it is that of its text. -/
theorem eq_ofList_of_taggedValue? {cs : List Char} {tag text : String}
    (h : taggedValue? tag cs = some (.string text)) : text = String.ofList cs := by
  unfold taggedValue? at h
  split at h
  · simp at h
  split at h
  · split at h <;> cases h
  split at h
  · simp at h
  split at h
  · split at h <;> cases h
  · exact (Tree.string.inj (Option.some.inj h)).symm

/-- Under a core tag, a scalar with a comma is a string or refused. -/
theorem isString_of_taggedValue?_of_comma {cs : List Char} (h : ',' ∈ cs) {tag : String}
    {value : Tree} (hvalue : taggedValue? tag cs = some value) :
    value = .string (String.ofList cs) := by
  simp only [taggedValue?, bool?_eq_none h, integerText_of_comma h, float?_eq_none h,
    isNullText_of_comma h] at hvalue
  split at hvalue
  · cases hvalue
  split at hvalue
  · cases hvalue
  split at hvalue
  · cases hvalue
  split at hvalue
  · cases hvalue
  · exact (Option.some.inj hvalue).symm

end Scalar

namespace Tree

variable {cs ds : List Char} {tag : Option TagText} {plain quoted : Bool} {tree : Tree}

/-- The style of a scalar with a comma does not matter. -/
theorem ofScalar_of_comma (h : ',' ∈ cs) : ofScalar tag cs plain = ofScalar tag cs false := by
  have huntagged : untaggedScalar? cs plain = untaggedScalar? cs false := by
    cases plain with
    | true => exact Scalar.plainValue?_of_comma h
    | false => rfl
  unfold ofScalar
  rw [huntagged]

theorem withTag_injective (tag : Option TagText) : Function.Injective (withTag tag) := by
  intro a b h
  unfold withTag at h
  cases hname : tag.bind localTag? with
  | none => simpa [hname] using h
  | some name => simpa [hname] using h

/-- What a scalar holds under its tag. -/
theorem eq_withTag_of_ofScalar (h : ofScalar tag cs plain = .ok tree) :
    ∃ value, tree = withTag tag value ∧ (∀ text, value = .string text → text = String.ofList cs) ∧
      (',' ∈ cs → value = .string (String.ofList cs)) := by
  have huntagged : ∀ value, untaggedScalar? cs plain = some value →
      (∀ text, value = .string text → text = String.ofList cs) ∧
        (',' ∈ cs → value = .string (String.ofList cs)) := by
    intro value hvalue
    cases plain with
    | true =>
      refine ⟨fun text htext => Scalar.eq_ofList_of_plainValue? (htext ▸ hvalue), fun hcomma => ?_⟩
      exact Option.some.inj (hvalue.symm.trans (Scalar.plainValue?_of_comma hcomma))
    | false =>
      obtain rfl := Option.some.inj hvalue
      exact ⟨fun text htext => (Tree.string.inj htext).symm, fun _ => rfl⟩
  unfold ofScalar at h
  dsimp only at h
  split at h
  next value hvalue =>
    refine ⟨value, (Except.ok.inj h).symm, ?_⟩
    split at hvalue
    · exact huntagged value hvalue
    · split at hvalue
      · exact huntagged value hvalue
      · split at hvalue
        · exact ⟨fun text htext => Scalar.eq_ofList_of_taggedValue? (htext ▸ hvalue),
            fun hcomma => Scalar.isString_of_taggedValue?_of_comma hcomma hvalue⟩
        · obtain rfl := Option.some.inj hvalue
          exact ⟨fun text htext => (Tree.string.inj htext).symm, fun _ => rfl⟩
  next => cases h

/-- Under the same tag, two texts one of which has a comma give different trees. -/
theorem ofScalar_apart {other : Tree} (hne : cs ≠ ds) (hcomma : ',' ∈ cs)
    (h : ofScalar tag cs plain = .ok tree) (hother : ofScalar tag ds quoted = .ok other) :
    tree ≠ other := by
  intro heq
  obtain ⟨value, rfl, -, hvalue⟩ := eq_withTag_of_ofScalar h
  obtain ⟨value', rfl, htext, -⟩ := eq_withTag_of_ofScalar hother
  obtain rfl := withTag_injective tag heq
  have := htext _ (hvalue hcomma)
  exact hne (String.ofList_injective this)

end Tree

end RamlDoc.Yaml
