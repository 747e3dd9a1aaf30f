import Mathlib.Data.List.Induction
import RamlDoc.Fixup.TextPass

/-!
# The keys that the text pass records

The pass keeps a stack of levels and at most one open block, both read off the lines it looks into.
A level stays open as long as the lines behind it are further right, so the stack behind some lines
is known from the levels of each line alone (`stateAfter_eq`). With this the recorded paths are
described by the lines of the text, without the stack (`mem_emptyKeys_iff`).
-/

namespace RamlDoc.Fixup

/-- The levels of a line by itself: the entry and the item that it begins, innermost first. -/
def levelsOf (line : List Char) : List (Nat × Option String) :=
  (passLine .start line []).1.enclosing

/-- The indentation of the block that a line by itself leaves open. -/
def blockOf (line : List Char) : Option Nat := (passLine .start line []).1.block

/-- The block that some lines leave open: the one that the last of them opens. -/
def blockBehind (seen : List (List Char)) : Option Nat := seen.getLast?.bind blockOf

/-- Whether the pass looks into a line, given the lines before it that it looked into. -/
def isSeen (seen : List (List Char)) (line : List Char) : Bool :=
  !isSkipped line && (blockBehind seen).all fun block => indentation line ≤ block

/-- The lines that the pass looks into: content outside of open blocks. -/
def seenLines (lines : List (List Char)) : List (List Char) :=
  lines.foldl (fun seen line => if isSeen seen line then seen ++ [line] else seen) []

/-- The levels left open behind some lines, outermost first: those that all lines behind their own
are further right than. -/
def openLevels : List (List Char) → List (Nat × Option String)
  | [] => []
  | line :: later =>
    ((levelsOf line).reverse.filter fun level =>
      later.all fun other => level.1 < indentation other) ++ openLevels later

/-- The state behind some lines. -/
def stateAfter (state : PassState) (lines : List (List Char)) : PassState :=
  lines.foldl (fun state line => (passLine state line []).1) state

section

variable {state : PassState} {line : List Char} {lines following more : List (List Char)}

/-! ## What a line does to the state -/

theorem passLine_fst_eq : (passLine state line following).1 = (passLine state line []).1 := by
  unfold passLine
  split
  · rfl
  · dsimp only
    split
    · rfl
    · split <;> rfl

theorem passLine_of_not_seen (h : (isSkipped line || state.covers (indentation line)) = true) :
    passLine state line following = (state, .unchanged line) := by
  rw [passLine, if_pos h]

/-- A line is passed over alike if it has a block below alike. -/
theorem passLine_congr
    (h : hasBlockBelow (indentation line) following = hasBlockBelow (indentation line) more) :
    passLine state line following = passLine state line more := by
  simp only [passLine, afterEntry, recordedKey?, h]

theorem hasBlockBelow_cons {indent : Nat} (hskip : isSkipped line = false) :
    hasBlockBelow indent (line :: following) = (decide (indent < indentation line) ||
      (decide (indentation line = indent) && isItem (Text.trimStart line))) := by
  rw [hasBlockBelow, List.find?_cons_of_pos (by simp [hskip])]

theorem hasBlockBelow_of_skipped {indent : Nat} (hskip : isSkipped line = true) :
    hasBlockBelow indent (line :: following) = hasBlockBelow indent following := by
  rw [hasBlockBelow, List.find?_cons_of_neg (by simp [hskip])]
  rfl

theorem afterItem_eq (levels : List (Nat × Option String)) :
    afterItem ⟨levels, none⟩ line =
      ⟨(afterItem .start line).enclosing ++ levels, (afterItem .start line).block⟩ := by
  unfold afterItem
  dsimp only
  split
  · rfl
  · split <;> rfl

/-- A line adds its own levels to those that are further left, and its block is the open one. -/
theorem passLine_fst_of_seen (h : (isSkipped line || state.covers (indentation line)) = false) :
    (passLine state line following).1 =
      ⟨levelsOf line ++ (state.leave (indentation line)).enclosing, blockOf line⟩ := by
  have hstart : (isSkipped line || PassState.start.covers (indentation line)) = false := by
    rw [Bool.or_eq_false_iff] at h ⊢
    exact ⟨h.1, rfl⟩
  unfold levelsOf blockOf passLine
  simp only [h, hstart, Bool.false_eq_true, if_false]
  split
  · exact afterItem_eq _
  · split <;> rfl

/-- The content of an item is further right than its dash. -/
theorem indentation_lt_of_isItem (h : isItem (Text.trimStart line) = true) :
    indentation line <
      Text.byteLength line - Text.byteLength (Text.trimStart ((Text.trimStart line).drop 1)) := by
  have hsplit : Text.byteLength line = indentation line + Text.byteLength (Text.trimStart line) := by
    rw [indentation, Text.trimStart, ← Text.byteLength_append, List.takeWhile_append_dropWhile]
  obtain ⟨rest, hrest⟩ : ∃ rest, Text.trimStart line = '-' :: rest := by
    unfold isItem at h
    split at h
    next heq => exact ⟨_, heq⟩
    next heq => exact ⟨_, heq⟩
    next => cases h
  have hshort := Text.byteLength_dropWhile_le Text.isBlank rest
  rw [hsplit, hrest, List.drop_succ_cons, List.drop_zero, Text.byteLength_cons]
  have hdash : Char.utf8Size '-' = 1 := rfl
  unfold Text.trimStart
  omega

/-- A line begins nothing, an item or an entry, or an item with an entry inside. -/
theorem levelsOf_cases (line : List Char) :
    levelsOf line = [] ∨ (∃ key, levelsOf line = [(indentation line, key)]) ∨
      ∃ column key, indentation line < column ∧
        levelsOf line = [(column, key), (indentation line, none)] := by
  unfold levelsOf passLine
  split
  · exact .inl rfl
  · dsimp only
    split
    next hitem =>
      unfold afterItem
      dsimp only
      split
      · exact .inr (.inl ⟨_, rfl⟩)
      · split
        · exact .inr (.inl ⟨_, rfl⟩)
        · exact .inr (.inr ⟨_, _, indentation_lt_of_isItem hitem, rfl⟩)
    next =>
      split
      · exact .inl rfl
      · exact .inr (.inl ⟨_, rfl⟩)

theorem indentation_le_of_mem_levelsOf {level : Nat × Option String} (h : level ∈ levelsOf line) :
    indentation line ≤ level.1 := by
  rcases levelsOf_cases line with hnone | ⟨key, hone⟩ | ⟨column, key, hlt, htwo⟩
  · rw [hnone] at h
    cases h
  · rw [hone, List.mem_singleton] at h
    exact h ▸ Nat.le_refl _
  · rw [htwo, List.mem_cons, List.mem_singleton] at h
    rcases h with rfl | rfl
    · exact Nat.le_of_lt hlt
    · exact Nat.le_refl _

theorem pairwise_levelsOf (line : List Char) :
    (levelsOf line).Pairwise fun inner outer => outer.1 < inner.1 := by
  rcases levelsOf_cases line with hnone | ⟨key, hone⟩ | ⟨column, key, hlt, htwo⟩
  · simp [hnone]
  · simp [hone]
  · simpa [htwo] using hlt

/-! ## The stack behind some lines -/

/-- Leaving the levels that are not further left keeps the others, as a stack is sorted. -/
theorem dropWhile_eq_filter_of_pairwise {levels : List (Nat × Option String)} {indent : Nat}
    (h : levels.Pairwise fun inner outer => outer.1 < inner.1) :
    (levels.dropWhile fun level => indent ≤ level.1) = levels.filter fun level => level.1 < indent := by
  induction levels with
  | nil => rfl
  | cons level levels ih =>
    obtain ⟨houter, hlevels⟩ := List.pairwise_cons.1 h
    by_cases hindent : indent ≤ level.1
    · rw [List.dropWhile_cons_of_pos (by simpa using hindent), ih hlevels,
        List.filter_cons_of_neg (by simpa using hindent)]
    · rw [List.dropWhile_cons_of_neg (by simpa using hindent), eq_comm, List.filter_eq_self]
      intro other hother
      rcases List.mem_cons.1 hother with rfl | hother
      · simpa using hindent
      · have := houter other hother
        simpa using by omega

theorem openLevels_append_singleton (seen : List (List Char)) (line : List Char) :
    openLevels (seen ++ [line]) =
      ((openLevels seen).filter fun level => level.1 < indentation line) ++ (levelsOf line).reverse := by
  induction seen with
  | nil => simp [openLevels]
  | cons first seen ih =>
    rw [List.cons_append, openLevels, ih, openLevels, List.filter_append, List.filter_filter,
      List.append_assoc]
    congr 1
    refine List.filter_congr fun level _ => ?_
    simp [Bool.and_comm]

theorem pairwise_openLevels (seen : List (List Char)) :
    (openLevels seen).Pairwise fun outer inner => outer.1 < inner.1 := by
  induction seen using List.reverseRecOn with
  | nil => exact .nil
  | append_singleton seen line ih =>
    rw [openLevels_append_singleton, List.pairwise_append]
    refine ⟨ih.filter _, List.pairwise_reverse.2 (pairwise_levelsOf line), ?_⟩
    intro outer houter inner hinner
    have hleft : outer.1 < indentation line := by simpa using (List.mem_filter.1 houter).2
    have hright := indentation_le_of_mem_levelsOf (List.mem_reverse.1 hinner)
    omega

theorem seenLines_append_singleton :
    seenLines (lines ++ [line]) =
      if isSeen (seenLines lines) line then seenLines lines ++ [line] else seenLines lines := by
  rw [seenLines, List.foldl_append]
  rfl

theorem not_isSeen (line : List Char) {seen : List (List Char)} (h : state.block = blockBehind seen) :
    (isSkipped line || state.covers (indentation line)) = !isSeen seen line := by
  rw [isSeen, PassState.covers, h]
  cases blockBehind seen with
  | none => simp
  | some block =>
    by_cases hlt : block < indentation line
    · simp [hlt]
    · simp [hlt, Nat.le_of_not_lt hlt]

/-- The state behind some lines, from each line by itself. -/
theorem stateAfter_eq (lines : List (List Char)) :
    stateAfter .start lines =
      ⟨(openLevels (seenLines lines)).reverse, blockBehind (seenLines lines)⟩ := by
  induction lines using List.reverseRecOn with
  | nil => rfl
  | append_singleton lines line ih =>
    have hseen := not_isSeen line (congrArg PassState.block ih)
    rw [stateAfter, List.foldl_append, ← stateAfter, seenLines_append_singleton]
    change (passLine (stateAfter .start lines) line []).1 = _
    split
    next h =>
      rw [passLine_fst_of_seen (by rw [hseen, h]; rfl), PassState.leave, ih]
      rw [dropWhile_eq_filter_of_pairwise (List.pairwise_reverse.2 (pairwise_openLevels _)),
        openLevels_append_singleton, List.reverse_append, List.reverse_reverse, List.filter_reverse,
        blockBehind, List.getLast?_concat]
      rfl
    next h =>
      rw [passLine_of_not_seen (by rw [hseen]; simpa using h), ih]

end

/-! ## The recorded paths -/

/-- The result for a line is the one in the state behind the lines before it. -/
theorem mem_passLines_iff {state : PassState} {lines : List (List Char)} {result : LineResult} :
    result ∈ passLines state lines ↔ ∃ before line following, lines = before ++ line :: following ∧
      result = (passLine (stateAfter state before) line following).2 := by
  induction lines generalizing state with
  | nil => simp [passLines]
  | cons first rest ih =>
    rw [passLines, List.mem_cons, ih, passLine_fst_eq]
    constructor
    · rintro (rfl | ⟨before, line, following, rfl, rfl⟩)
      · exact ⟨[], first, rest, rfl, rfl⟩
      · exact ⟨first :: before, line, following, rfl, rfl⟩
    · rintro ⟨before, line, following, hsplit, rfl⟩
      cases before with
      | nil =>
        obtain ⟨rfl, rfl⟩ := List.cons.inj hsplit
        exact .inl rfl
      | cons other before =>
        obtain ⟨rfl, rfl⟩ := List.cons.inj hsplit
        exact .inr ⟨before, line, following, rfl, rfl⟩

/-- A line looks like an entry without a value: the pass looks into it, it has a key with nothing
or a comment behind it, no lines further right or items belong to it, and the levels open behind
it, its own the innermost, are entries with the keys of a path. -/
structure LooksEmpty (before : List (List Char)) (line : List Char) (following : List (List Char))
    (path : KeyPath) : Prop where
  seen : isSeen (seenLines before) line = true
  notItem : isItem (Text.trimStart line) = false
  entry : ∃ key value, entry? line = some (key, value) ∧ (value = [] ∨ value.head? = some '#')
  alone : hasBlockBelow (indentation line) following = false
  keys : (openLevels (seenLines (before ++ [line]))).mapM Prod.snd = some path

theorem levelsOf_of_entry? {line key value : List Char} (hskip : isSkipped line = false)
    (hitem : isItem (Text.trimStart line) = false) (hentry : entry? line = some (key, value)) :
    levelsOf line = [(indentation line, some (unquoted key))] := by
  have hstart : (isSkipped line || PassState.start.covers (indentation line)) = false := by
    rw [hskip]
    rfl
  unfold levelsOf passLine
  simp only [hstart, hitem, hentry, Bool.false_eq_true, if_false]
  rfl

section

variable {state : PassState} {before following : List (List Char)} {line key value : List Char}
  {path : KeyPath}

theorem emptyKey_afterEntry_eq_some_iff :
    (afterEntry state line key value following).2.emptyKey = some path ↔
      (value = [] ∨ value.head? = some '#') ∧ hasBlockBelow (indentation line) following = false ∧
        ∃ around, state.path? = some around ∧ around ++ [unquoted key] = path := by
  unfold afterEntry recordedKey?
  dsimp only
  have hempty : (if value.head? = some '#' then [] else value).isEmpty = true ↔
      value = [] ∨ value.head? = some '#' := by
    split
    next hcomment => simp [hcomment]
    next hcomment => simp [hcomment]
  rw [← hempty]
  generalize (if value.head? = some '#' then [] else value) = shown
  split
  next h =>
    rw [Bool.and_eq_true, Bool.not_eq_true'] at h
    simp [h.1, h.2]
  next h =>
    rw [Bool.and_eq_true, Bool.not_eq_true'] at h
    exact ⟨nofun, fun ⟨hvalue, halone, _⟩ => absurd ⟨hvalue, halone⟩ h⟩

theorem path?_leave_eq (hstate : state = ⟨(openLevels (seenLines before)).reverse,
      blockBehind (seenLines before)⟩) :
    (state.leave (indentation line)).path? =
      ((openLevels (seenLines before)).filter fun level => level.1 < indentation line).mapM
        Prod.snd := by
  rw [hstate, PassState.path?, PassState.leave]
  rw [dropWhile_eq_filter_of_pairwise (List.pairwise_reverse.2 (pairwise_openLevels _)),
    List.filter_reverse, List.reverse_reverse]

theorem keys_eq_some_iff (hseen : isSeen (seenLines before) line = true)
    (hitem : isItem (Text.trimStart line) = false) (hentry : entry? line = some (key, value)) :
    (openLevels (seenLines (before ++ [line]))).mapM Prod.snd = some path ↔
      ∃ around, ((openLevels (seenLines before)).filter fun level =>
        level.1 < indentation line).mapM Prod.snd = some around ∧ around ++ [unquoted key] = path := by
  have hskip : isSkipped line = false := by
    rw [isSeen, Bool.and_eq_true, Bool.not_eq_true'] at hseen
    exact hseen.1
  rw [seenLines_append_singleton, if_pos hseen, openLevels_append_singleton,
    levelsOf_of_entry? hskip hitem hentry, List.mapM_append]
  cases ((openLevels (seenLines before)).filter fun level =>
    level.1 < indentation line).mapM Prod.snd with
  | none => simp
  | some around => simp

end

theorem emptyKey_passLine_eq_some_iff {before following : List (List Char)} {line : List Char}
    {path : KeyPath} :
    (passLine (stateAfter .start before) line following).2.emptyKey = some path ↔
      LooksEmpty before line following path := by
  have hstate := stateAfter_eq before
  have hseen := not_isSeen line (congrArg PassState.block hstate)
  cases h : isSeen (seenLines before) line with
  | false =>
    rw [passLine_of_not_seen (by rw [hseen, h]; rfl)]
    exact ⟨nofun, fun hempty => absurd (h.symm.trans hempty.seen) Bool.false_ne_true⟩
  | true =>
    rw [h] at hseen
    rw [passLine, if_neg (by rw [hseen]; decide)]
    dsimp only
    split
    next hitem =>
      exact ⟨nofun, fun hempty => absurd (hempty.notItem.symm.trans hitem) Bool.false_ne_true⟩
    next hitem =>
      have hitem : isItem (Text.trimStart line) = false := by simpa using hitem
      split
      next hentry =>
        refine ⟨nofun, fun hempty => ?_⟩
        obtain ⟨key, value, hsome, -⟩ := hempty.entry
        cases hentry.symm.trans hsome
      next key value hentry =>
        rw [emptyKey_afterEntry_eq_some_iff, path?_leave_eq hstate, ← keys_eq_some_iff h hitem hentry]
        constructor
        · rintro ⟨hvalue, halone, hkeys⟩
          exact ⟨h, hitem, ⟨key, value, hentry, hvalue⟩, halone, hkeys⟩
        · rintro ⟨-, -, ⟨key', value', hentry', hvalue⟩, halone, hkeys⟩
          obtain ⟨rfl, rfl⟩ := Prod.mk.inj (Option.some.inj (hentry.symm.trans hentry'))
          exact ⟨hvalue, halone, hkeys⟩

/-- The pass records the paths of the lines that look like entries without a value. -/
theorem mem_emptyKeys_iff {text : List Char} {path : KeyPath} :
    path ∈ (fixText text).emptyKeys ↔ ∃ before line following,
      Text.lines text = before ++ line :: following ∧ LooksEmpty before line following path := by
  have hkeys : (fixText text).emptyKeys = (results text).filterMap (·.emptyKey) := rfl
  rw [hkeys, List.mem_filterMap]
  unfold results
  constructor
  · rintro ⟨result, hresult, hpath⟩
    obtain ⟨before, line, following, hsplit, rfl⟩ := mem_passLines_iff.1 hresult
    exact ⟨before, line, following, hsplit, emptyKey_passLine_eq_some_iff.1 hpath⟩
  · rintro ⟨before, line, following, hsplit, hempty⟩
    exact ⟨_, mem_passLines_iff.2 ⟨before, line, following, hsplit, rfl⟩,
      emptyKey_passLine_eq_some_iff.2 hempty⟩

end RamlDoc.Fixup
