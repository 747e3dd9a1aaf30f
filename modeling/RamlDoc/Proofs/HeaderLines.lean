import Mathlib.Data.List.Basic
import Mathlib.Data.List.TakeWhile
import RamlDoc.Header

/-!
# Header lines

The lines that declare a root document or a fragment are given by two grammars. The check of a root
document accepts just the lines of its grammar (`checkRoot_eq_ok_iff`). The check of a fragment asks
for no blank behind the version (`checkFragment_eq_ok_iff`): besides the lines of its grammar it
accepts the one in which the identifier stands directly there (`hasIdentifier_iff`). Both checks
compare what is left of a line behind its mark without blanks, of which it has none at its end
(`trim_eq_iff`).

No text is a root document and a fragment, or a fragment of two kinds. Where the mark of a fragment
stands, no byte-order mark is dropped, so both checks see the same line
(`HasIdentifier.rootLine_eq`); it ends with the version or with an identifier, and only one.
-/

namespace RamlDoc

namespace Text

theorem trimEnd_trimEnd (cs : List Char) : trimEnd (trimEnd cs) = trimEnd cs :=
  trimEnd_eq_self_iff.2 (getLast?_trimEnd cs)

theorem trimEnd_eq_self_of_suffix {cs tail : List Char} (h : trimEnd cs = cs)
    (hsuffix : tail <:+ cs) : trimEnd tail = tail := by
  obtain ⟨front, rfl⟩ := hsuffix
  rw [trimEnd_eq_self_iff] at h ⊢
  intro c hc
  exact h c (List.mem_getLast?_append_of_mem_getLast? hc)

end Text

namespace FragmentKind

theorem ofIdentifier?_eq_some_iff {s : String} {kind : FragmentKind} :
    ofIdentifier? s = some kind ↔ s = kind.identifier := by
  constructor
  · intro h
    have hfound := List.find?_some h
    exact (of_decide_eq_true hfound).symm
  · rintro rfl
    cases kind <;> decide

theorem identifier_ne_empty (kind : FragmentKind) : kind.identifier ≠ "" := by
  cases kind <;> decide

theorem head?_identifier (kind : FragmentKind) :
    ∀ c ∈ kind.identifier.toList.head?, Text.isBlank c = false := by
  cases kind <;>
    · rintro c ⟨⟩
      rfl

theorem exists_getLast?_identifier (kind : FragmentKind) :
    ∃ c, kind.identifier.toList.getLast? = some c ∧ c ≠ '0' := by
  cases kind <;> exact ⟨_, rfl, by decide⟩

end FragmentKind

namespace Header

variable {cs word rest line text : List Char} {path path' : Path} {kind kind' : FragmentKind}

/-! ## The lines -/

/-- Nothing but blanks. -/
def IsGap (gap : List Char) : Prop := ∀ c ∈ gap, Text.isBlank c = true

/-- A line that declares a root document: the mark, a space, a gap and the version. -/
def IsRootLine (line : List Char) : Prop :=
  ∃ gap, IsGap gap ∧ line = mark ++ ' ' :: (gap ++ "1.0".toList)

/-- A line that declares a fragment: the mark with the version, at least one blank and the
identifier. -/
def IsFragmentLine (kind : FragmentKind) (line : List Char) : Prop :=
  ∃ gap, IsGap gap ∧ gap ≠ [] ∧ line = fragmentMark ++ (gap ++ kind.identifier.toList)

/-- The line with the identifier directly behind the version. -/
def joinedLine (kind : FragmentKind) : List Char := fragmentMark ++ kind.identifier.toList

/-- A line with the identifier somewhere behind the version, and only blanks between them. -/
def HasIdentifier (kind : FragmentKind) (line : List Char) : Prop :=
  ∃ gap, IsGap gap ∧ line = fragmentMark ++ (gap ++ kind.identifier.toList)

/-- The first line of a fragment without blanks at its end. -/
def fragmentLine (text : List Char) : List Char := Text.trimEnd (Text.firstLine text)

theorem hasIdentifier_iff :
    HasIdentifier kind line ↔ IsFragmentLine kind line ∨ line = joinedLine kind := by
  constructor
  · rintro ⟨gap, hgap, rfl⟩
    cases gap with
    | nil => exact .inr rfl
    | cons c gap => exact .inl ⟨c :: gap, hgap, List.cons_ne_nil c gap, rfl⟩
  · rintro (⟨gap, hgap, -, rfl⟩ | rfl)
    · exact ⟨gap, hgap, rfl⟩
    · exact ⟨[], List.forall_mem_nil _, rfl⟩

theorem not_isFragmentLine_joinedLine (kind : FragmentKind) :
    ¬IsFragmentLine kind (joinedLine kind) := by
  rintro ⟨gap, -, hne, hline⟩
  have hlength := congrArg List.length (List.append_cancel_left hline)
  rw [List.length_append] at hlength
  have := List.length_pos_iff.2 hne
  omega

/-! ## What is left of a line -/

/-- A text without blanks at its end is a gap and what is left of it without blanks. -/
theorem trim_eq_iff (hend : Text.trimEnd cs = cs)
    (hword : ∀ c ∈ word.head?, Text.isBlank c = false) :
    Text.trim cs = word ↔ ∃ gap, IsGap gap ∧ cs = gap ++ word := by
  have htrim : Text.trim cs = Text.trimStart cs :=
    Text.trimEnd_eq_self_of_suffix hend (List.dropWhile_suffix _)
  rw [htrim]
  constructor
  · rintro rfl
    exact ⟨cs.takeWhile Text.isBlank, fun c hc => List.mem_takeWhile_imp hc,
      List.takeWhile_append_dropWhile.symm⟩
  · rintro ⟨gap, hgap, rfl⟩
    exact Text.dropWhile_append_of_head hgap hword

/-- What stands behind a mark has no blanks at its end if the line has none. -/
theorem split_of_afterStart? {start : List Char}
    (h : Text.afterStart? start (Text.trimEnd cs) = some rest) :
    Text.trimEnd cs = start ++ rest ∧ Text.trimEnd rest = rest := by
  have hline := Text.afterStart?_eq_some.1 h
  exact ⟨hline, Text.trimEnd_eq_self_of_suffix (Text.trimEnd_trimEnd cs) ⟨start, hline.symm⟩⟩

/-! ## Root documents -/

/-- Behind the mark of a root line there are a space, a gap and the version. -/
theorem trim_eq_version_iff (hend : Text.trimEnd rest = rest) :
    rest.head? = some ' ' ∧ Text.trim rest = "1.0".toList ↔
      ∃ gap, IsGap gap ∧ rest = ' ' :: (gap ++ "1.0".toList) := by
  have hversion : ∀ c ∈ "1.0".toList.head?, Text.isBlank c = false := by
    rintro c ⟨⟩
    rfl
  rw [trim_eq_iff hend hversion]
  constructor
  · rintro ⟨hspace, gap, hgap, rfl⟩
    cases gap with
    | nil => cases hspace
    | cons c gap =>
      obtain rfl := Option.some.inj hspace
      exact ⟨gap, (List.forall_mem_cons.1 hgap).2, rfl⟩
  · rintro ⟨gap, hgap, rfl⟩
    exact ⟨rfl, ' ' :: gap, List.forall_mem_cons.2 ⟨rfl, hgap⟩, rfl⟩

theorem checkRoot_eq_ok_iff :
    checkRoot text = .ok () ↔ text.all Text.isBlank = false ∧ IsRootLine (rootLine text) := by
  unfold checkRoot
  split
  next hblank => simp [hblank]
  next hblank =>
    rw [Bool.not_eq_true] at hblank
    rw [hblank, eq_self, true_and]
    dsimp only
    split
    next hnone =>
      refine iff_of_false nofun fun ⟨gap, _, hline⟩ => ?_
      rw [Text.afterStart?_eq_some.2 hline] at hnone
      cases hnone
    next rest hrest =>
      obtain ⟨hline, hend⟩ := split_of_afterStart? hrest
      have hroot : IsRootLine (rootLine text) ↔
          rest.head? = some ' ' ∧ Text.trim rest = "1.0".toList := by
        rw [trim_eq_version_iff hend, IsRootLine, rootLine]
        simp only [hline, List.append_cancel_left_eq]
      rw [hroot]
      -- The space is asked for apart from the version, which is compared without blanks.
      split
      next hrefused =>
        refine iff_of_false nofun ?_
        rintro ⟨hspace, hversion⟩
        rw [hspace, hversion] at hrefused
        cases hrefused
      next hspace =>
        rw [Bool.or_eq_true, not_or, decide_eq_true_eq, not_not] at hspace
        split
        next hversion => exact iff_of_true rfl ⟨hspace.1, hversion⟩
        next hversion => exact iff_of_false nofun fun h => hversion h.2

/-! ## Fragments -/

theorem checkFragment_eq_ok_iff :
    checkFragment text path kind = .ok () ↔ HasIdentifier kind (fragmentLine text) := by
  rw [checkFragment, ← fragmentLine]
  dsimp only
  split
  next hnone =>
    refine iff_of_false nofun fun ⟨gap, _, hline⟩ => ?_
    rw [Text.afterStart?_eq_some.2 hline] at hnone
    cases hnone
  next rest hrest =>
    obtain ⟨hline, hend⟩ := split_of_afterStart? hrest
    have hfound : HasIdentifier kind (fragmentLine text) ↔
        String.ofList (Text.trim rest) = kind.identifier := by
      rw [← String.toList_inj, String.toList_ofList, trim_eq_iff hend kind.head?_identifier,
        HasIdentifier, fragmentLine]
      simp only [hline, List.append_cancel_left_eq]
    rw [hfound]
    -- Nothing is asked of what stands before the identifier, so the gap may be empty.
    split
    next hempty => exact iff_of_false nofun fun h => kind.identifier_ne_empty (h.symm.trans hempty)
    next =>
      rw [← FragmentKind.ofIdentifier?_eq_some_iff]
      split
      next h => exact iff_of_true rfl h
      next h => exact iff_of_false nofun h

/-! ## One header at most -/

theorem IsRootLine.getLast? (h : IsRootLine line) : line.getLast? = some '0' := by
  obtain ⟨gap, -, rfl⟩ := h
  rw [← List.cons_append, ← List.append_assoc, List.getLast?_append]
  rfl

theorem HasIdentifier.getLast? (h : HasIdentifier kind line) : line.getLast? ≠ some '0' := by
  obtain ⟨gap, -, rfl⟩ := h
  obtain ⟨c, hlast, hne⟩ := kind.exists_getLast?_identifier
  rw [← List.append_assoc, List.getLast?_append, hlast, Option.some_or]
  exact fun heq => hne (Option.some.inj heq)

theorem HasIdentifier.unique (h : HasIdentifier kind line) (h' : HasIdentifier kind' line) :
    kind = kind' := by
  obtain ⟨gap, hgap, rfl⟩ := h
  obtain ⟨gap', hgap', heq⟩ := h'
  have hidentifier := congrArg Text.trimStart (List.append_cancel_left heq)
  rw [Text.trimStart, Text.trimStart, Text.dropWhile_append_of_head hgap kind.head?_identifier,
    Text.dropWhile_append_of_head hgap' kind'.head?_identifier] at hidentifier
  have hkind := FragmentKind.ofIdentifier?_eq_some_iff.2 (String.toList_inj.1 hidentifier)
  exact Option.some.inj ((FragmentKind.ofIdentifier?_eq_some_iff.2 rfl).symm.trans hkind)

/-- No byte-order mark stands before the mark of a fragment. -/
theorem HasIdentifier.rootLine_eq (h : HasIdentifier kind (fragmentLine text)) :
    rootLine text = fragmentLine text := by
  obtain ⟨gap, -, hline⟩ := h
  have hhead : (Text.firstLine text).head? = some '#' := by
    refine Text.head?_trimEnd ?_
    rw [← fragmentLine, hline]
    rfl
  obtain ⟨rest, hfirst⟩ := List.head?_eq_some_iff.1 hhead
  rw [rootLine, fragmentLine, hfirst, List.dropWhile_cons_of_neg (by decide)]

/-- The check of a root document accepts the lines of its grammar. The check of a fragment does so
exactly if the identifier does not stand directly behind the version. No text is accepted as a root
document and a fragment, or as fragments of two kinds. -/
theorem checks_eq_ok_iff (text : List Char) (path path' : Path) (kind kind' : FragmentKind) :
    (checkRoot text = .ok () ↔ text.all Text.isBlank = false ∧ IsRootLine (rootLine text)) ∧
      ((checkFragment text path kind = .ok () ↔ IsFragmentLine kind (fragmentLine text)) ↔
        fragmentLine text ≠ joinedLine kind) ∧
      (checkRoot text = .ok () → checkFragment text path kind ≠ .ok ()) ∧
      (checkFragment text path kind = .ok () → checkFragment text path' kind' = .ok () →
        kind = kind') := by
  refine ⟨checkRoot_eq_ok_iff, ?_, fun hroot hfragment => ?_, fun hfragment hfragment' => ?_⟩
  · rw [checkFragment_eq_ok_iff, hasIdentifier_iff]
    constructor
    · intro h heq
      exact not_isFragmentLine_joinedLine kind (heq ▸ h.1 (.inr heq))
    · exact fun hne => or_iff_left hne
  · have hidentifier := checkFragment_eq_ok_iff.1 hfragment
    have hline := (checkRoot_eq_ok_iff.1 hroot).2
    rw [hidentifier.rootLine_eq] at hline
    exact hidentifier.getLast? hline.getLast?
  · exact (checkFragment_eq_ok_iff.1 hfragment).unique (checkFragment_eq_ok_iff.1 hfragment')

/-- A text that is accepted as a library, with more than one blank in places, is no root document,
and one that is accepted as a root document is no library. -/
theorem checks_eq_ok_library :
    checkFragment "#%RAML 1.0 \t Library \r\n".toList ⟨"lib.raml"⟩ .library = .ok () ∧
      checkRoot "#%RAML 1.0 \t Library \r\n".toList ≠ .ok () ∧
      checkRoot "\ufeff#%RAML \t 1.0 \r\n".toList = .ok () ∧
      checkFragment "\ufeff#%RAML \t 1.0 \r\n".toList ⟨"lib.raml"⟩ .library ≠ .ok () := by
  obtain ⟨-, hfits, hdisjoint, -⟩ := checks_eq_ok_iff "#%RAML 1.0 \t Library \r\n".toList
    ⟨"lib.raml"⟩ ⟨"lib.raml"⟩ .library .library
  obtain ⟨hroot, -, hdisjoint', -⟩ := checks_eq_ok_iff "\ufeff#%RAML \t 1.0 \r\n".toList
    ⟨"lib.raml"⟩ ⟨"lib.raml"⟩ .library .library
  have hgap : IsGap [' ', '\t', ' '] := List.all_eq_true.1 rfl
  have hlibrary := (hfits.2 (by decide)).2 ⟨_, hgap, by decide, by decide⟩
  have hversion : IsGap ['\t', ' '] := List.all_eq_true.1 rfl
  have haccepted := hroot.2 ⟨by decide, _, hversion, by decide⟩
  exact ⟨hlibrary, fun hboth => hdisjoint hboth hlibrary, haccepted, hdisjoint' haccepted⟩

/-- The check of a fragment accepts a line that is not of its grammar. -/
theorem not_isFragmentLine_of_checkFragment :
    ¬∀ text path kind, checkFragment text path kind = .ok () ↔
      IsFragmentLine kind (fragmentLine text) := by
  intro h
  have haccepted : checkFragment "#%RAML 1.0Library\n".toList ⟨"lib.raml"⟩ .library = .ok () := by
    decide
  have hline : fragmentLine "#%RAML 1.0Library\n".toList = joinedLine .library := by decide
  have hspaced := (h _ _ _).1 haccepted
  rw [hline] at hspaced
  exact not_isFragmentLine_joinedLine .library hspaced

end Header

end RamlDoc
