import RamlDoc.Proofs.LinesAligned
import RamlDoc.Proofs.OpenValues
import RamlDoc.Proofs.RecordedKeys

/-!
# What the text pass does to each line

The pass keeps each line or puts the decimal at its end in quotes, and puts the lines together
again with a line feed at the end just if there was one. Blank lines, comments and items of
sequences stay as they are and record nothing.

So do the lines of an open block, which is described by the lines alone: one of them opens it, and
no content behind that is as far left (`IsOpen`). What it takes to open a block is a parameter. The
pass has a notion of its own (`PassOpens`), and its state holds just the column of the block that is
open in that sense (`block_stateAfter_eq_some_iff`), by induction from the last line. The reader has
another (`ReaderOpens`). The pass overlooks some of the blocks that the reader finds, and there it
touches lines inside (`not_isPassOver_of_inner_bracket`). In whichever sense blocks are open,
`isPassOver_results` says for which texts the pass keeps off the lines inside.
-/

namespace RamlDoc.Fixup

open Yaml

variable {opens : List Char → Nat → Prop} {lines more before following : List (List Char)}
  {line fixed : List Char} {column : Nat}

/-! ## Open blocks -/

/-- What stands behind the dash of an item. -/
def behindDash (line : List Char) : List Char := Text.trimStart ((Text.trimStart line).drop 1)

/-- A line opens a block at a column, where a notion of values that open one is given: the value of
an entry does, what stands behind the dash of an item, or the value of an entry behind that dash.
The column is that of the entry or else of the dash. -/
inductive OpensAt (opens : List Char → Prop) : List Char → Nat → Prop
  | entry {line key value : List Char} (hitem : isItem (Text.trimStart line) = false)
      (hentry : entry? line = some (key, value)) (hopens : opens value) :
      OpensAt opens line (indentation line)
  | item {line : List Char} (hitem : isItem (Text.trimStart line) = true)
      (hopens : opens (behindDash line)) : OpensAt opens line (indentation line)
  | itemEntry {line key value : List Char} (hitem : isItem (Text.trimStart line) = true)
      (hclosed : ¬opens (behindDash line))
      (hentry : entry? (behindDash line) = some (key, value)) (hopens : opens value) :
      OpensAt opens line (Text.byteLength line - Text.byteLength (behindDash line))

/-- A line opens a block as the pass sees it, which goes by single characters of the value. -/
def PassOpens : List Char → Nat → Prop := OpensAt (opensBlock · = true)

/-- A line opens a block scalar, or a flow collection that it does not close, as the reader finds
them in the value that stands there. Entries and items, with their values, are those of the pass. -/
def ReaderOpens : List Char → Nat → Prop := OpensAt LeavesOpen

/-- Behind some lines a block at a column is open, where it is given which lines open one: a line of
content opens it that is not in a block itself, and all content behind that line is further right
than the column. -/
def IsOpen (opens : List Char → Nat → Prop) (lines : List (List Char)) (column : Nat) : Prop :=
  ∃ outer opener inner, ∃ _ : lines = outer ++ opener :: inner, isSkipped opener = false ∧
    (∀ around, IsOpen opens outer around → indentation opener ≤ around) ∧ opens opener column ∧
      ∀ content ∈ inner, isSkipped content = false → column < indentation content
termination_by lines.length

/-- A line stands in a block that is open behind the lines before it. -/
def Inside (opens : List Char → Nat → Prop) (before : List (List Char)) (line : List Char) : Prop :=
  ∃ column, IsOpen opens before column ∧ column < indentation line

theorem block_afterItem_eq_some_iff {levels : List (Nat × Option String)}
    (hitem : isItem (Text.trimStart line) = true) :
    (afterItem ⟨levels, none⟩ line).block = some column ↔ PassOpens line column := by
  have hcontent : Text.trimStart ((Text.trimStart line).drop 1) = behindDash line := rfl
  unfold afterItem
  simp only [hcontent]
  constructor
  · intro h
    split at h
    next hopens =>
      obtain rfl := Option.some.inj h
      exact .item hitem hopens
    next hclosed =>
      split at h
      next => cases h
      next key value hentry =>
        obtain ⟨hopens, rfl⟩ : opensBlock value = true ∧ _ = column := by simpa using h
        exact .itemEntry hitem hclosed hentry hopens
  · rintro (⟨hentry, -, -⟩ | ⟨-, hopens⟩ | ⟨-, hclosed, hentry, hopens⟩)
    · exact absurd (hitem.symm.trans hentry) (by decide)
    · rw [if_pos hopens]
    · simp only [hclosed, hentry, hopens, Bool.false_eq_true, if_false, if_true]

theorem block_afterEntry_eq_some_iff {levels : List (Nat × Option String)} {key value : List Char}
    (hitem : isItem (Text.trimStart line) = false) (hentry : entry? line = some (key, value)) :
    (afterEntry ⟨levels, none⟩ line key value following).1.block = some column ↔
      PassOpens line column := by
  have hvalue : opensBlock (if value.head? = some '#' then [] else value) = opensBlock value := by
    split
    next hsign =>
      have hclosed : opensBlock value = false := by
        apply opensBlock_eq_false_of_head
        intro c hc
        obtain rfl := Option.some.inj (hsign.symm.trans hc)
        decide
      rw [hclosed]
      rfl
    next => rfl
  unfold afterEntry
  simp only [hvalue]
  constructor
  · intro h
    obtain ⟨hopens, rfl⟩ : opensBlock value = true ∧ _ = column := by simpa using h
    exact .entry hitem hentry hopens
  · rintro (⟨-, hentry', hopens⟩ | ⟨hitem', -⟩ | ⟨hitem', -, -, -⟩)
    · obtain ⟨rfl, rfl⟩ := Prod.mk.inj (Option.some.inj (hentry.symm.trans hentry'))
      rw [if_pos hopens]
    · exact absurd (hitem.symm.trans hitem') (by decide)
    · exact absurd (hitem.symm.trans hitem') (by decide)

theorem blockOf_eq_some_iff (hskip : isSkipped line = false) :
    blockOf line = some column ↔ PassOpens line column := by
  have hstart : (isSkipped line || PassState.start.covers (indentation line)) = false := by
    rw [hskip]
    rfl
  unfold blockOf passLine
  rw [if_neg (by simp [hstart])]
  dsimp only
  split
  next hitem => exact block_afterItem_eq_some_iff hitem
  next hitem =>
    split
    next hentry =>
      refine ⟨nofun, ?_⟩
      rintro (⟨-, hentry', -⟩ | ⟨hitem', -⟩ | ⟨hitem', -, -, -⟩)
      · cases hentry.symm.trans hentry'
      · exact absurd hitem' hitem
      · exact absurd hitem' hitem
    next key value hentry =>
      exact block_afterEntry_eq_some_iff (by simpa using hitem) hentry

theorem PassState.covers_eq_true_iff {state : PassState} {indent : Nat} :
    state.covers indent = true ↔ ∃ block, state.block = some block ∧ block < indent := by
  rw [PassState.covers, Option.any_eq_true]
  simp

/-- A block stays open as long as all content is further right. -/
theorem IsOpen.append (h : IsOpen opens lines column)
    (hmore : ∀ content ∈ more, isSkipped content = false → column < indentation content) :
    IsOpen opens (lines ++ more) column := by
  rw [IsOpen] at h ⊢
  obtain ⟨outer, opener, inner, rfl, hskip, hout, hopens, hinner⟩ := h
  refine ⟨outer, opener, inner ++ more, by simp, hskip, hout, hopens, fun content hcontent => ?_⟩
  rcases List.mem_append.1 hcontent with hcontent | hcontent
  · exact hinner content hcontent
  · exact hmore content hcontent

theorem isOpen_concat : IsOpen opens (lines ++ [line]) column ↔
    (isSkipped line = false ∧ (∀ around, IsOpen opens lines around → indentation line ≤ around) ∧
      opens line column) ∨
    (IsOpen opens lines column ∧ (isSkipped line = false → column < indentation line)) := by
  constructor
  · intro h
    rw [IsOpen] at h
    obtain ⟨outer, opener, inner, hsplit, hskip, hout, hopens, hinner⟩ := h
    rcases List.eq_nil_or_concat inner with rfl | ⟨inner, last, rfl⟩
    · obtain ⟨rfl, hline⟩ := List.append_inj' hsplit rfl
      obtain rfl := List.singleton_inj.1 hline
      exact .inl ⟨hskip, hout, hopens⟩
    · rw [List.concat_eq_append, ← List.cons_append, ← List.append_assoc] at hsplit
      obtain ⟨rfl, hline⟩ := List.append_inj' hsplit rfl
      obtain rfl := List.singleton_inj.1 hline
      refine .inr ⟨?_, hinner line (by simp)⟩
      rw [IsOpen]
      exact ⟨outer, opener, inner, rfl, hskip, hout, hopens, fun content hcontent =>
        hinner content (by simp [hcontent])⟩
  · rintro (⟨hskip, hout, hopens⟩ | ⟨h, hright⟩)
    · rw [IsOpen]
      exact ⟨lines, line, [], rfl, hskip, hout, hopens, by simp⟩
    · exact h.append (List.forall_mem_singleton.2 hright)

/-- The state of the pass holds the column of the open block. -/
theorem block_stateAfter_eq_some_iff :
    (stateAfter .start lines).block = some column ↔ IsOpen PassOpens lines column := by
  induction lines using List.reverseRecOn generalizing column with
  | nil =>
    rw [IsOpen]
    simp [stateAfter, PassState.start]
  | append_singleton lines line ih =>
    have hconcat : stateAfter .start (lines ++ [line]) =
        (passLine (stateAfter .start lines) line []).1 := by
      rw [stateAfter, List.foldl_append]
      rfl
    rw [hconcat, isOpen_concat]
    simp only [← ih]
    generalize stateAfter .start lines = state
    cases hskip : isSkipped line with
    | true =>
      rw [passLine_of_not_seen (by rw [hskip]; rfl)]
      simp
    | false =>
      cases hcovers : state.covers (indentation line) with
      | true =>
        rw [passLine_of_not_seen (by rw [hcovers, Bool.or_true])]
        obtain ⟨block, hblock, hlt⟩ := PassState.covers_eq_true_iff.1 hcovers
        simp only [hblock, Option.some.injEq, forall_eq', true_and, forall_const]
        omega
      | false =>
        rw [passLine_fst_of_seen (by rw [hskip, hcovers]; rfl), ← blockOf_eq_some_iff hskip]
        have hout : ∀ block, state.block = some block → indentation line ≤ block := by
          intro block hblock
          by_contra hlt
          have := PassState.covers_eq_true_iff.2 ⟨block, hblock, Nat.lt_of_not_le hlt⟩
          exact absurd (this.symm.trans hcovers) (by decide)
        constructor
        · intro hopens
          exact .inl ⟨rfl, hout, hopens⟩
        · rintro (⟨-, -, hopens⟩ | ⟨hblock, hright⟩)
          · exact hopens
          · have hle := hout column hblock
            have hlt := hright rfl
            omega

theorem covers_stateAfter_iff :
    (stateAfter .start before).covers (indentation line) = true ↔ Inside PassOpens before line := by
  simp only [PassState.covers_eq_true_iff, block_stateAfter_eq_some_iff, Inside]

theorem isOpen_singleton (hskip : isSkipped line = false) (h : opens line column) :
    IsOpen opens [line] column := by
  rw [IsOpen]
  refine ⟨[], line, [], rfl, hskip, fun around haround => ?_, h, by simp⟩
  rw [IsOpen] at haround
  simp at haround

/-- A line opens a block no further left than it begins. -/
theorem indentation_le_of_passOpens (h : PassOpens line column) : indentation line ≤ column := by
  cases h with
  | entry => exact Nat.le_refl _
  | item => exact Nat.le_refl _
  | itemEntry hitem => exact Nat.le_of_lt (indentation_lt_of_isItem hitem)

/-- A line that stands in a block stands in one that the pass sees, if each line that opens one
opens one for the pass as well, there or further left. -/
theorem Inside.passOpens (h : Inside opens before line)
    (hopens : ∀ opener ∈ before, ∀ column, opens opener column →
      ∃ around ≤ column, PassOpens opener around) : Inside PassOpens before line := by
  obtain ⟨column, hopen, hright⟩ := h
  rw [IsOpen] at hopen
  obtain ⟨outer, opener, inner, rfl, hskip, -, hopener, hinner⟩ := hopen
  obtain ⟨left, hleft, hopener⟩ := hopens opener (by simp) column hopener
  by_cases hout : ∀ around, IsOpen PassOpens outer around → indentation opener ≤ around
  · refine ⟨left, ?_, by omega⟩
    rw [IsOpen]
    refine ⟨outer, opener, inner, rfl, hskip, hout, hopener, fun content hcontent hskip' => ?_⟩
    have := hinner content hcontent hskip'
    omega
  · -- The line that opens the block is passed over, and so is all that is further right.
    push Not at hout
    obtain ⟨around, haround, hlt⟩ := hout
    have hle := indentation_le_of_passOpens hopener
    refine ⟨around, haround.append fun content hcontent hskip' => ?_, by omega⟩
    rcases List.mem_cons.1 hcontent with rfl | hcontent
    · exact hlt
    · have := hinner content hcontent hskip'
      omega

/-- The pass sees the blocks that lines open for the reader, apart from the values that it
overlooks. -/
theorem exists_passOpens (h : ReaderOpens line column)
    (hseen : ¬OpensAt (fun value => LeavesOpen value ∧ Overlooked value) line column) :
    ∃ around ≤ column, PassOpens line around := by
  have hopens : ∀ value, LeavesOpen value → ¬(LeavesOpen value ∧ Overlooked value) →
      opensBlock value = true := by
    intro value hvalue hnot
    rw [← Bool.not_eq_false, opensBlock_eq_false_iff hvalue]
    exact fun hoverlooked => hnot ⟨hvalue, hoverlooked⟩
  cases h with
  | entry hitem hentry hvalue =>
    exact ⟨_, Nat.le_refl _, .entry hitem hentry
      (hopens _ hvalue fun hnot => hseen (.entry hitem hentry hnot))⟩
  | item hitem hvalue =>
    exact ⟨_, Nat.le_refl _, .item hitem (hopens _ hvalue fun hnot => hseen (.item hitem hnot))⟩
  | itemEntry hitem hclosed hentry hvalue =>
    have hvalue := hopens _ hvalue fun hnot =>
      hseen (.itemEntry hitem (fun hdash => hclosed hdash.1) hentry hnot)
    by_cases hdash : opensBlock (behindDash line) = true
    · exact ⟨_, Nat.le_of_lt (indentation_lt_of_isItem hitem), .item hitem hdash⟩
    · exact ⟨_, Nat.le_refl _, .itemEntry hitem hdash hentry hvalue⟩

/-! ## The lines put together -/

theorem FixedLine.not_mem (h : FixedLine line fixed) {x : Char} (hx : x ∉ line) (hquote : x ≠ '"') :
    x ∉ fixed := by
  rcases h with rfl | h
  · exact hx
  · obtain ⟨-, -, -⟩ := quotedDecimal?_eq_some_iff.1 h
    simp only [List.mem_append, List.mem_cons, List.not_mem_nil, or_false] at hx ⊢
    tauto

theorem FixedLine.ne_nil (h : FixedLine line fixed) (hne : line ≠ []) : fixed ≠ [] := by
  rcases h with rfl | h
  · exact hne
  · obtain ⟨-, -, -⟩ := quotedDecimal?_eq_some_iff.1 h
    simp

/-- The text that the new lines make ends with a line feed just if the old one does. -/
theorem ends_of_relined {before text joined : List Char}
    (h : Relined FixedLine before text lines joined) (hfeed : '\n' ∉ before) :
    (joined = [] ↔ before = [] ∧ text = []) ∧
      (joined.getLast? = some '\n' ↔ text.getLast? = some '\n') := by
  induction h with
  | nil => simp
  | @last before fixed hne hline =>
    have hfixed : fixed ≠ [] := hline.ne_nil (by simpa using hne)
    have hlast : fixed.getLast? ≠ some '\n' := fun hlast =>
      hline.not_mem (by simpa using hfeed) (by decide) (List.mem_of_getLast? hlast)
    simp [hne, hfixed, hlast]
  | @feed before fixed text joined _ _ _ ih =>
    obtain ⟨hnil, hlast⟩ := ih List.not_mem_nil
    refine ⟨by simp, ?_⟩
    cases text with
    | nil =>
      rw [hnil.2 ⟨rfl, rfl⟩]
      simp
    | cons d text =>
      obtain ⟨e, joined, rfl⟩ := List.exists_cons_of_ne_nil (mt hnil.1 (by simp))
      rw [List.getLast?_append, List.getLast?_cons_cons, List.getLast?_cons_cons, ← hlast,
        List.getLast?_cons, Option.some_or]
  | @char c before text _ _ hc _ ih =>
    obtain ⟨hnil, hlast⟩ := ih (by simpa [Ne.symm hc] using hfeed)
    rw [hnil, hlast]
    refine ⟨by simp, ?_⟩
    cases text with
    | nil => simp [hc]
    | cons d text => rw [List.getLast?_cons_cons]

theorem getElem?_passLines (state : PassState) (before : List (List Char)) (line : List Char)
    (following : List (List Char)) :
    (passLines state (before ++ line :: following))[before.length]? =
      some (passLine (stateAfter state before) line following).2 := by
  induction before generalizing state with
  | nil => rfl
  | cons first before ih =>
    rw [List.cons_append, passLines, List.length_cons, List.getElem?_cons_succ, ih, passLine_fst_eq]
    rfl

/-! ## What the pass does -/

theorem passLine_of_isItem {state : PassState} (hitem : isItem (Text.trimStart line) = true) :
    (passLine state line following).2 = .unchanged line := by
  by_cases hseen : (isSkipped line || state.covers (indentation line)) = true
  · rw [passLine_of_not_seen hseen]
  · rw [passLine, if_neg hseen]
    simp only [hitem, if_true]

/-- The pass copies what stands in a block that it sees. -/
theorem passLine_of_inside (h : Inside PassOpens before line) :
    (passLine (stateAfter .start before) line following).2 = .unchanged line := by
  rw [passLine_of_not_seen (by rw [covers_stateAfter_iff.2 h, Bool.or_true])]

/-- The pass does something about a line: it puts the decimal of an entry in quotes that it does not
see in a block, or it takes the line for an entry without a value. -/
inductive Touched (before : List (List Char)) (line : List Char) (following : List (List Char)) :
    Prop
  | decimal {fixed : List Char} (hitem : isItem (Text.trimStart line) = false)
      (hout : ¬Inside PassOpens before line) (hquotes : QuotesDecimal line fixed)
  | empty {path : KeyPath} (hempty : LooksEmpty before line following path)

theorem LineResult.ne_unchanged {result : LineResult} (h : result.quoted = true) :
    result ≠ .unchanged line := by
  rintro rfl
  cases h

theorem quoted_passLine_iff : (passLine (stateAfter .start before) line following).2.quoted = true ↔
    isItem (Text.trimStart line) = false ∧ ¬Inside PassOpens before line ∧
      ∃ fixed, QuotesDecimal line fixed := by
  constructor
  · intro hquoted
    have hchanged : (passLine (stateAfter .start before) line following).2 ≠ .unchanged line :=
      LineResult.ne_unchanged hquoted
    refine ⟨?_, fun hinside => hchanged (passLine_of_inside hinside), ?_⟩
    · rw [Bool.eq_false_iff]
      exact fun hitem => hchanged (passLine_of_isItem hitem)
    · rcases text_passLine_cases (stateAfter .start before) line following with h | h
      · cases hquoted.symm.trans h.1
      · exact ⟨_, quotedDecimal?_eq_some_iff.1 h.2⟩
  · rintro ⟨hitem, hout, fixed, hquotes⟩
    rw [← covers_stateAfter_iff, Bool.not_eq_true] at hout
    obtain ⟨next, hpass⟩ := passLine_of_quotesDecimal hquotes hout hitem
    rw [(hpass following).1]

/-- These are the lines that do not stay as they are, or record a key. -/
theorem touched_iff : Touched before line following ↔
    (passLine (stateAfter .start before) line following).2 ≠ .unchanged line := by
  constructor
  · rintro (⟨hitem, hout, hquotes⟩ | hempty)
    · exact LineResult.ne_unchanged (quoted_passLine_iff.2 ⟨hitem, hout, _, hquotes⟩)
    · intro heq
      have hkey := emptyKey_passLine_eq_some_iff.2 hempty
      rw [heq] at hkey
      cases hkey
  · intro hne
    rcases text_passLine_cases (stateAfter .start before) line following with h | h
    · cases hkey : (passLine (stateAfter .start before) line following).2.emptyKey with
      | some path => exact .empty (emptyKey_passLine_eq_some_iff.1 hkey)
      | none =>
        refine absurd ?_ hne
        generalize (passLine (stateAfter .start before) line following).2 = result at h hkey
        obtain ⟨text, key, quoted⟩ := result
        obtain ⟨rfl, rfl⟩ : quoted = false ∧ text = line := h
        obtain rfl : key = none := hkey
        rfl
    · obtain ⟨hitem, hout, fixed, hquotes⟩ := quoted_passLine_iff.1 h.1
      exact .decimal hitem hout hquotes

/-- What the pass may make of a line behind others. The line stays, or its decimal is put in quotes.
A blank line, a comment, an item and a line in an open block stay and record nothing. -/
structure Passed (opens : List Char → Nat → Prop) (before : List (List Char)) (line : List Char)
    (result : LineResult) : Prop where
  kept : result.quoted = false → result.text = line
  quoted : result.quoted = true ↔ QuotesDecimal line result.text
  skipped : isSkipped line = true → result = .unchanged line
  item : isItem (Text.trimStart line) = true → result = .unchanged line
  inside : Inside opens before line → result = .unchanged line

/-- What the pass makes of a text, from what it makes of each line. -/
structure IsPassOver (opens : List Char → Nat → Prop) (text : List Char)
    (results : List LineResult) (fixed : FixedText) : Prop where
  text_eq : fixed.text = joinedLike text (results.map (·.text))
  lineFeed : fixed.text.getLast? = some '\n' ↔ text.getLast? = some '\n'
  emptyKeys_eq : fixed.emptyKeys = results.filterMap (·.emptyKey)
  quotedDecimals_eq : fixed.quotedDecimals = results.countP (·.quoted)
  length_eq : results.length = (Text.lines text).length
  passed : ∀ before line following, Text.lines text = before ++ line :: following →
    ∃ result, results[before.length]? = some result ∧ Passed opens before line result

theorem passed_passLine (h : Inside opens before line → ¬Touched before line following) :
    Passed opens before line (passLine (stateAfter .start before) line following).2 where
  kept hkept := by
    rcases text_passLine_cases (stateAfter .start before) line following with h | h
    · exact h.2
    · exact absurd (hkept.symm.trans h.1) (by decide)
  quoted := by
    rcases text_passLine_cases (stateAfter .start before) line following with h | h
    · constructor
      · intro hquoted
        exact absurd (h.1.symm.trans hquoted) (by decide)
      · intro hquotes
        exact absurd h.2 hquotes.ne
    · exact ⟨fun _ => quotedDecimal?_eq_some_iff.1 h.2, fun _ => h.1⟩
  skipped hskip := by
    rw [passLine_of_not_seen (by rw [hskip, Bool.true_or])]
  item := passLine_of_isItem
  inside hinside := not_not.1 (mt touched_iff.2 (h hinside))

theorem getElem?_results {text : List Char}
    (hsplit : Text.lines text = before ++ line :: following) :
    (results text)[before.length]? =
      some (passLine (stateAfter .start before) line following).2 := by
  rw [results, hsplit, getElem?_passLines]

/-- The pass keeps off the lines in open blocks just if it touches none of them. -/
theorem isPassOver_iff {text : List Char} : IsPassOver opens text (results text) (fixText text) ↔
    ∀ before line following, Text.lines text = before ++ line :: following →
      Inside opens before line → ¬Touched before line following := by
  constructor
  · intro h before line following hsplit hinside htouched
    obtain ⟨result, hresult, hpassed⟩ := h.passed before line following hsplit
    obtain rfl := Option.some.inj ((getElem?_results hsplit).symm.trans hresult)
    exact touched_iff.1 htouched (hpassed.inside hinside)
  · intro h
    exact {
      text_eq := rfl
      lineFeed :=
        (ends_of_relined (relined_joinedLike (fixedLines_results text)) List.not_mem_nil).2
      emptyKeys_eq := rfl
      quotedDecimals_eq := rfl
      length_eq := by simpa using (fixedLines_results text).length_eq.symm
      passed := fun before line following hsplit =>
        ⟨_, getElem?_results hsplit, passed_passLine (h before line following hsplit)⟩ }

theorem not_touched_of_inside (h : Inside PassOpens before line) :
    ¬Touched before line following := by
  rw [touched_iff, not_not]
  exact passLine_of_inside h

/-- The text pass touches nothing but decimals, and looks at no line that does not count. In
whichever sense lines open blocks, it keeps off the lines inside just if it touches none of them:
the lines it touches are the entries with a decimal or without a value that do not stand in a block
as it sees them. It keeps off the blocks of the reader if no line opens one with a value that it
overlooks. These values have a dash, a tag or an anchor in front, a comment behind no space, or a
bracket of their kind at the end of the line. All others are seen. -/
theorem isPassOver_results (text : List Char) :
    (∀ opens, IsPassOver opens text (results text) (fixText text) ↔
      ∀ before line following, Text.lines text = before ++ line :: following →
        Inside opens before line → ¬Touched before line following) ∧
    ((∀ line ∈ Text.lines text, ∀ column,
        ¬OpensAt (fun value => LeavesOpen value ∧ Overlooked value) line column) →
      IsPassOver ReaderOpens text (results text) (fixText text)) ∧
    ∀ value, LeavesOpen value → (opensBlock value = false ↔ Overlooked value) := by
  refine ⟨fun opens => isPassOver_iff, fun hseen => ?_, fun value => opensBlock_eq_false_iff⟩
  refine isPassOver_iff.2 fun before line following hsplit hinside => not_touched_of_inside ?_
  refine hinside.passOpens fun opener hopener column h =>
    exists_passOpens h (hseen opener ?_ column)
  rw [hsplit]
  exact List.mem_append_left _ hopener

/-- The pass sees the block scalar of this text, and keeps off the decimal in it. -/
theorem isPassOver_block_scalar :
    (∀ line ∈ Text.lines "d: |\n  e: 1,5\n".toList, ∀ column,
      ¬OpensAt (fun value => LeavesOpen value ∧ Overlooked value) line column) ∧
    Inside ReaderOpens ["d: |".toList] "  e: 1,5".toList ∧
    IsPassOver ReaderOpens "d: |\n  e: 1,5\n".toList (results "d: |\n  e: 1,5\n".toList)
      (fixText "d: |\n  e: 1,5\n".toList) := by
  have hlines : Text.lines "d: |\n  e: 1,5\n".toList = ["d: |".toList, "  e: 1,5".toList] := by
    decide
  have hfirst : entry? "d: |".toList = some (['d'], ['|']) := by decide
  have hsecond : entry? "  e: 1,5".toList = some (['e'], ['1', ',', '5']) := by decide
  have hscalar : OpensScalar ['|'] := ⟨.inl rfl, .clip, none, _, rfl, rfl⟩
  have hseen : ∀ line ∈ Text.lines "d: |\n  e: 1,5\n".toList, ∀ column,
      ¬OpensAt (fun value => LeavesOpen value ∧ Overlooked value) line column := by
    intro line hline column h
    rw [hlines, List.mem_cons, List.mem_singleton] at hline
    rcases hline with rfl | rfl
    · cases h with
      | entry _ hentry hvalue =>
        obtain ⟨-, rfl⟩ := Prod.mk.inj (Option.some.inj (hfirst.symm.trans hentry))
        cases (opensBlock_eq_false_iff hvalue.1).2 hvalue.2
      | item hitem => cases hitem
      | itemEntry hitem => cases hitem
    · cases h with
      | entry _ hentry hvalue =>
        obtain ⟨-, rfl⟩ := Prod.mk.inj (Option.some.inj (hsecond.symm.trans hentry))
        obtain ⟨c, hmark, hc⟩ := hvalue.1.exists_head
        obtain rfl := Option.some.inj hc
        simp at hmark
      | item hitem => cases hitem
      | itemEntry hitem => cases hitem
  have hopen : ReaderOpens "d: |".toList 0 := .entry (by decide) hfirst (.scalar .nil hscalar)
  exact ⟨hseen, ⟨0, isOpen_singleton (by decide) hopen, by decide⟩,
    (isPassOver_results _).2.1 hseen⟩

/-- The decimal of the entry is put in quotes, and its line loses the blank at its end. Those of the
item and of the block scalar stay as they are. -/
example : fixText "a: 1,5 \nb:\n- c: 1,5\nd: |\n  e: 1,5\n".toList =
    ⟨"a: \"1,5\"\nb:\n- c: 1,5\nd: |\n  e: 1,5\n".toList, [], 1⟩ := by decide

/-- The value of `a` ends with a bracket, but not with the one that closes it. So the pass takes it
for closed, and puts a decimal in quotes that stands in it. -/
theorem not_isPassOver_of_inner_bracket :
    ¬IsPassOver ReaderOpens "a: [[1]\n  , b: 1,5\n  ]\n".toList
      (results "a: [[1]\n  , b: 1,5\n  ]\n".toList)
      (fixText "a: [[1]\n  , b: 1,5\n  ]\n".toList) := by
  intro h
  have hvalue : OpensFlow "[[1]".toList :=
    ⟨.inl rfl, [], [.flowSequenceStart, .flowSequenceStart, .scalar ['1'] true, .flowSequenceEnd,
      .streamEnd], by simp, rfl, by decide⟩
  have hentry : entry? "a: [[1]".toList = some (['a'], "[[1]".toList) := by decide
  have hopen : ReaderOpens "a: [[1]".toList 0 := .entry (by decide) hentry (.flow .nil hvalue)
  obtain ⟨result, hresult, hpassed⟩ := h.passed ["a: [[1]".toList] "  , b: 1,5".toList
    ["  ]".toList] (by decide)
  have hquoted : (results "a: [[1]\n  , b: 1,5\n  ]\n".toList)[1]? =
      some ⟨"  , b: \"1,5\"".toList, none, true⟩ := by decide
  obtain rfl := Option.some.inj (hquoted.symm.trans hresult)
  cases hpassed.inside ⟨0, isOpen_singleton (by decide) hopen, by decide⟩

end RamlDoc.Fixup
