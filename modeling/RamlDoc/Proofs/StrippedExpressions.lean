import RamlDoc.Proofs.ExpressibleTypes

/-!
# Blanks and parentheses in type expressions

Reading a union drops the blanks and parentheses in it, but only behind the layers of brackets at
its end. An expression with a bar is layers of brackets over a text whose blanks and parentheses do
not matter (`exists_layers_of_bar`). Dropping them first keeps these layers, and may bring brackets
inside the text to its end, where they are read as further layers. So blanks and parentheses matter
exactly if dropping them changes how many layers there are (`ofString_strip_eq_iff`).
-/

namespace RamlDoc.DataType

variable {cs word : List Char} {type : DataType} {count : Nat}

/-! ## Counting layers -/

/-- How many layers of arrays a type has on the outside. -/
def layerCount : DataType → Nat
  | .array element => element.layerCount + 1
  | .any | .object | .union _ | .scalar _ | .custom _ => 0

/-- How many pairs of brackets a text written backwards starts with. -/
def pairsBackwards : List Char → Nat
  | ']' :: '[' :: before => pairsBackwards before + 1
  | _ => 0

/-- How many pairs of brackets stand at the end of a text. -/
def bracketPairs (cs : List Char) : Nat := pairsBackwards cs.reverse

theorem layerCount_arrays (count : Nat) (type : DataType) :
    (arrays count type).layerCount = type.layerCount + count := by
  induction count with
  | zero => rfl
  | succ count ih => rw [arrays, layerCount, ih, Nat.add_assoc]

theorem layerCount_ofWord (word : List Char) : (ofWord word).layerCount = 0 := by
  cases hword : ofWord word with
  | array element => exact absurd hword (ofWord_ne_array word element)
  | _ => rfl

theorem layerCount_ofCore (word : List Char) : (ofCore word).layerCount = 0 := by
  rw [ofCore]
  split
  · rfl
  · exact layerCount_ofWord word

theorem bracketPairs_append_layers (cs : List Char) (count : Nat) :
    bracketPairs (cs ++ layers count) = bracketPairs cs + count := by
  induction count with
  | zero => rw [layers, List.append_nil, Nat.add_zero]
  | succ count ih =>
    have hpair : (cs ++ layers (count + 1)).reverse =
        ']' :: '[' :: (cs ++ layers count).reverse := by
      simp [layers, brackets]
    rw [bracketPairs, hpair, pairsBackwards, ← bracketPairs, ih, Nat.add_assoc]

example : bracketPairs "A[]|B[ ][][]".toList = 2 := by decide

theorem bracketPairs_eq_zero (h : ¬brackets <:+ cs) : bracketPairs cs = 0 := by
  unfold bracketPairs
  generalize hreversed : cs.reverse = reversed
  unfold pairsBackwards
  split
  · rename_i before
    refine absurd ⟨before.reverse, ?_⟩ h
    simpa [brackets] using (congrArg List.reverse hreversed).symm
  · rfl

/-! ## Expressions with a bar -/

theorem strip_strip (cs : List Char) : strip (strip cs) = strip cs := by
  rw [strip, strip, List.filter_filter]
  simp only [Bool.and_self]

theorem bar_mem_strip (h : '|' ∈ cs) : '|' ∈ strip cs :=
  List.mem_filter.2 ⟨h, by decide⟩

theorem trim_strip (cs : List Char) : Text.trim (strip cs) = strip cs := by
  have hkept : ∀ c ∈ strip cs, Text.isBlank c = false := by
    intro c hc
    have hkeep := (List.mem_filter.1 hc).2
    simp only [Bool.and_eq_true, Bool.not_eq_true'] at hkeep
    exact hkeep.1.1
  apply Text.trim_eq_self_iff.2
  constructor
  · intro c hc
    exact hkept c (List.mem_of_mem_head? hc)
  · intro c hc
    exact hkept c (List.mem_of_getLast? hc)

theorem strip_dropWhile_isBlank (cs : List Char) :
    strip (cs.dropWhile Text.isBlank) = strip cs := by
  induction cs with
  | nil => rfl
  | cons c cs ih =>
    by_cases hc : Text.isBlank c
    · rw [List.dropWhile_cons_of_pos hc, ih, strip, strip, List.filter_cons_of_neg (by simp [hc])]
    · rw [List.dropWhile_cons_of_neg hc]

theorem strip_reverse (cs : List Char) : strip cs.reverse = (strip cs).reverse :=
  List.filter_reverse

theorem strip_trim (cs : List Char) : strip (Text.trim cs) = strip cs := by
  rw [Text.trim, Text.trimEnd, Text.dropTailWhile, strip_reverse, strip_dropWhile_isBlank,
    strip_reverse, List.reverse_reverse, Text.trimStart, strip_dropWhile_isBlank]

/-- An expression with a bar is read as some layers of arrays over the union of what is left of it,
and its blanks and parentheses are those of what is left. -/
theorem exists_layers_of_bar (h : '|' ∈ cs) :
    ∃ count word, ofChars cs = arrays count (ofCore word) ∧ '|' ∈ word ∧
      strip cs = strip word ++ layers count := by
  unfold ofChars
  fun_induction layered ofCore cs with
  | case1 cs element helement ih =>
    have hsplit : Text.trim cs = element ++ brackets := Text.beforeEnd?_eq_some.1 helement
    have hstrip : strip cs = strip element ++ brackets := by
      rw [← strip_trim, hsplit, strip_append]
      rfl
    have hbar : '|' ∈ element := by
      have hmem : '|' ∈ strip element ++ brackets := hstrip ▸ bar_mem_strip h
      rcases List.mem_append.1 hmem with hmem | hmem
      · exact (List.mem_filter.1 hmem).1
      · exact absurd hmem (by decide)
    obtain ⟨count, word, heq, hword, hlayers⟩ := ih hbar
    refine ⟨count + 1, word, by rw [heq, arrays], hword, ?_⟩
    rw [hstrip, hlayers, layers, List.append_assoc]
  | case2 cs hnone =>
    refine ⟨0, Text.trim cs, rfl, ?_, ?_⟩
    · have hmem : '|' ∈ strip (Text.trim cs) := (strip_trim cs).symm ▸ bar_mem_strip h
      exact (List.mem_filter.1 hmem).1
    · rw [strip_trim, layers, List.append_nil]

/-- A text without blanks and parentheses is read with a layer for each pair of brackets at its
end. -/
theorem layerCount_ofChars (h : strip cs = cs) : (ofChars cs).layerCount = bracketPairs cs := by
  have htrim : Text.trim cs = cs := h ▸ trim_strip cs
  unfold ofChars
  fun_induction layered ofCore cs with
  | case1 cs element helement ih =>
    have hsplit : cs = element ++ brackets := htrim ▸ Text.beforeEnd?_eq_some.1 helement
    have hstrip : strip element = element := by
      rw [hsplit, strip_append] at h
      exact List.append_cancel_right h
    rw [layerCount, ih hstrip (hstrip ▸ trim_strip element), hsplit]
    exact (bracketPairs_append_layers element 1).symm
  | case2 cs hnone =>
    rw [layerCount_ofCore, bracketPairs_eq_zero]
    rw [element?_eq_none_iff, htrim] at hnone
    exact hnone

/-- What is left of an expression without its layers is read alike without blanks and parentheses
exactly if that brings no brackets to its end. -/
theorem ofChars_strip_eq_ofCore_iff (h : '|' ∈ word) :
    ofChars (strip word) = ofCore word ↔ bracketPairs (strip word) = 0 := by
  have hlayers := layerCount_ofChars (strip_strip word)
  constructor
  · intro heq
    rw [← hlayers, heq, layerCount_ofCore]
  · intro hzero
    have hunbracketed : ¬brackets <:+ strip word := by
      rintro ⟨front, hfront⟩
      have hpair := bracketPairs_append_layers front 1
      rw [← hfront] at hzero
      exact absurd (hpair.symm.trans hzero) (Nat.succ_ne_zero _)
    rw [ofChars, layered_of_isCore ⟨trim_strip word, hunbracketed⟩, ofCore, ofCore,
      if_pos (bar_mem_strip h), if_pos h, memberTexts, memberTexts, strip_strip]

theorem arrays_injective (count : Nat) {type' : DataType}
    (h : arrays count type = arrays count type') : type = type' := by
  induction count with
  | zero => exact h
  | succ count ih => exact ih (array.inj h)

/-- An expression with a bar is read alike without its blanks and parentheses exactly if it then has
as many pairs of brackets at its end as the type that it declares has layers of arrays. -/
theorem ofString_strip_eq_iff {s : String} (h : '|' ∈ s.toList) :
    ofString (String.ofList (strip s.toList)) = ofString s ↔
      (ofString s).layerCount = bracketPairs (strip s.toList) := by
  obtain ⟨count, word, heq, hword, hstrip⟩ := exists_layers_of_bar h
  have hread : ofString (String.ofList (strip s.toList)) = arrays count (ofChars (strip word)) := by
    rw [ofString, String.toList_ofList, hstrip, ofChars, layered_append_layers, ofChars]
  have hcount : (ofString s).layerCount = count := by
    rw [ofString, heq, layerCount_arrays, layerCount_ofCore, Nat.zero_add]
  have hpairs : bracketPairs (strip s.toList) = bracketPairs (strip word) + count := by
    rw [hstrip, bracketPairs_append_layers]
  calc ofString (String.ofList (strip s.toList)) = ofString s
      ↔ arrays count (ofChars (strip word)) = arrays count (ofCore word) := by
        rw [hread, ofString, heq]
    _ ↔ ofChars (strip word) = ofCore word := ⟨arrays_injective count, congrArg _⟩
    _ ↔ bracketPairs (strip word) = 0 := ofChars_strip_eq_ofCore_iff hword
    _ ↔ (ofString s).layerCount = bracketPairs (strip s.toList) := by
        rw [hcount, hpairs]
        omega

/-- Without its parentheses the union would end with the brackets of its last member. -/
theorem ofString_strip_ne_parenthesised :
    '|' ∈ "(A | B[])".toList ∧
      ofString (String.ofList (strip "(A | B[])".toList)) ≠ ofString "(A | B[])" := by
  have hbar : '|' ∈ "(A | B[])".toList := by decide
  have hcore : IsCore "(A | B[])".toList := ⟨by decide, by decide⟩
  have hcount : (ofString "(A | B[])").layerCount = 0 := by
    rw [ofString, ofChars, layered_of_isCore hcore, layerCount_ofCore]
  have hpairs : bracketPairs (strip "(A | B[])".toList) = 1 := by decide
  refine ⟨hbar, fun heq => ?_⟩
  have hlayers := (ofString_strip_eq_iff hbar).1 heq
  rw [hcount, hpairs] at hlayers
  exact absurd hlayers (by decide)

end RamlDoc.DataType
