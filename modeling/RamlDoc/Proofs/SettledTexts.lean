import RamlDoc.Proofs.PassedLines

/-!
# Texts that the text pass has left

The text pass over a text that it has left finds the same keys and changes nothing
(`fixText_fixText`). Both passes are in the same state before each line: a line with its decimal in
quotes opens the levels and the block that it opened without, it is no less of a block below the
lines in front of it (`passLine_text`), and so the induction on the lines goes through for every
state. A carriage return at the end of a line would be lost when the text is cut into lines again.
-/

namespace RamlDoc.Fixup

variable {state : PassState} {line fixed : List Char} {lines following more : List (List Char)}

/-! ## Lines that the pass has left -/

/-- The result for a line when the pass has been over it before. -/
def LineResult.settled (result : LineResult) : LineResult := { result with quoted := false }

theorem FixedLine.isSkipped_eq (h : FixedLine line fixed) : isSkipped fixed = isSkipped line := by
  rcases h with rfl | h
  · rfl
  · obtain ⟨hfront, -, -⟩ := quotedDecimal?_eq_some_iff.1 h
    rw [hfront.isSkipped_append, hfront.isSkipped_append]

theorem FixedLine.indentation_eq (h : FixedLine line fixed) :
    indentation fixed = indentation line := by
  rcases h with rfl | h
  · rfl
  · obtain ⟨hfront, -, -⟩ := quotedDecimal?_eq_some_iff.1 h
    rw [hfront.indentation_append, hfront.indentation_append]

theorem FixedLine.isItem_eq (h : FixedLine line fixed) :
    isItem (Text.trimStart fixed) = isItem (Text.trimStart line) := by
  rcases h with rfl | h
  · rfl
  · obtain ⟨hfront, -, -⟩ := quotedDecimal?_eq_some_iff.1 h
    rw [hfront.isItem_append, hfront.isItem_append]

/-- The lines that the pass leaves are a block below an entry just if the old ones are. -/
theorem hasBlockBelow_of_fixedLines (h : List.Forall₂ FixedLine lines following) (indent : Nat) :
    hasBlockBelow indent following = hasBlockBelow indent lines := by
  induction h with
  | nil => rfl
  | @cons line fixed _ _ hline _ ih =>
    cases hskip : isSkipped line with
    | true =>
      rw [hasBlockBelow_of_skipped hskip, hasBlockBelow_of_skipped (hline.isSkipped_eq.trans hskip),
        ih]
    | false =>
      rw [hasBlockBelow_cons hskip, hasBlockBelow_cons (hline.isSkipped_eq.trans hskip),
        hline.indentation_eq, hline.isItem_eq]

/-! ## The second pass -/

/-- In the same state a line that the pass has left stays as it is, and the state behind it is the
same again. -/
theorem passLine_text
    (h : hasBlockBelow (indentation line) more = hasBlockBelow (indentation line) following) :
    passLine state (passLine state line following).2.text more =
      ((passLine state line following).1, (passLine state line following).2.settled) := by
  rcases text_passLine_cases state line following with ⟨hkept, htext⟩ | ⟨hquoted, hdecimal⟩
  · rw [htext, passLine_congr h, LineResult.settled, ← hkept]
  · have hseen : (isSkipped line || state.covers (indentation line)) = false := by
      rw [Bool.eq_false_iff]
      intro hseen
      rw [passLine_of_not_seen hseen] at hquoted
      cases hquoted
    have hitem : isItem (Text.trimStart line) = false := by
      rw [Bool.eq_false_iff]
      intro hitem
      rw [passLine_of_isItem hitem] at hquoted
      cases hquoted
    rw [Bool.or_eq_false_iff] at hseen
    obtain ⟨next, hpass⟩ :=
      passLine_of_quotesDecimal (quotedDecimal?_eq_some_iff.1 hdecimal) hseen.2 hitem
    generalize (passLine state line following).2.text = fixed at hpass
    rw [(hpass following).1, (hpass more).2]
    rfl

/-- From the same state on the second pass has the same results, with nothing put in quotes. -/
theorem passLines_map_text (state : PassState) (lines : List (List Char)) :
    passLines state ((passLines state lines).map (·.text)) =
      (passLines state lines).map LineResult.settled := by
  induction lines generalizing state with
  | nil => rfl
  | cons line following ih =>
    have hbelow := hasBlockBelow_of_fixedLines
      (fixedLines_passLines (passLine state line following).1 following) (indentation line)
    rw [passLines]
    dsimp only
    rw [List.map_cons, List.map_cons, passLines, passLine_text hbelow]
    dsimp only
    rw [ih]

/-! ## The lines of the text that the pass leaves -/

theorem linesFrom_append {cs : List Char} (hfeed : '\n' ∉ cs) (before rest : List Char) :
    Text.linesFrom before (cs ++ rest) = Text.linesFrom (cs.reverse ++ before) rest := by
  induction cs generalizing before with
  | nil => rfl
  | cons c cs ih =>
    rw [List.mem_cons, not_or] at hfeed
    rw [List.cons_append, Text.linesFrom, if_neg (Ne.symm hfeed.1), ih hfeed.2]
    simp

theorem mem_of_mem_dropReturn {c : Char} (h : c ∈ Text.dropReturn line) : c ∈ line := by
  unfold Text.dropReturn at h
  split at h
  · exact (List.dropLast_sublist line).subset h
  · exact h

/-- Without carriage returns the new lines are found again in the text that they make. -/
theorem lines_of_relined {before text joined : List Char}
    (h : Relined FixedLine before text lines joined) (hfeed : '\n' ∉ before)
    (hreturn : '\r' ∉ before ++ text) : Text.lines joined = lines := by
  induction h with
  | nil => rfl
  | @last before fixed hne hline =>
    have hfixed : '\n' ∉ fixed := hline.not_mem (by simpa using hfeed) (by decide)
    have hnil : fixed ≠ [] := hline.ne_nil (by simpa using hne)
    calc Text.linesFrom [] fixed = Text.linesFrom [] (fixed ++ []) := by rw [List.append_nil]
      _ = [fixed] := by
        rw [linesFrom_append hfixed, Text.linesFrom, if_neg (by simpa using hnil)]
        simp
  | @feed before fixed text joined _ hline _ ih =>
    rw [List.mem_append, not_or, List.mem_cons, not_or] at hreturn
    have hfixed : ∀ c : Char, c ∉ before → c ≠ '"' → c ∉ fixed := fun c hc hquote =>
      hline.not_mem (fun hmem => hc (List.mem_reverse.1 (mem_of_mem_dropReturn hmem))) hquote
    have hkept : Text.dropReturn fixed = fixed := if_neg fun hlast =>
      hfixed '\r' hreturn.1 (by decide) (List.mem_of_getLast? hlast)
    have hjoined := ih List.not_mem_nil hreturn.2.2
    rw [Text.lines] at hjoined ⊢
    rw [linesFrom_append (hfixed '\n' hfeed (by decide)), Text.linesFrom, if_pos rfl, hjoined]
    simp [hkept]
  | @char c before text _ _ hc _ ih =>
    refine ih ?_ ?_
    · simpa [Ne.symm hc] using hfeed
    · simpa [or_left_comm] using hreturn

/-- The pass over a text that it has left finds the same keys and nothing more to quote. -/
theorem fixText_fixText {text : List Char} (h : '\r' ∉ text) :
    fixText (fixText text).text = { fixText text with quotedDecimals := 0 } := by
  have hrelined := relined_joinedLike (fixedLines_results text)
  have hlines : Text.lines (fixText text).text = (results text).map (·.text) :=
    lines_of_relined hrelined List.not_mem_nil h
  have hresults : results (fixText text).text = (results text).map LineResult.settled := by
    rw [results, hlines]
    exact passLines_map_text .start (Text.lines text)
  have hlast : (fixText text).text.getLast? = some '\n' ↔ text.getLast? = some '\n' :=
    (ends_of_relined hrelined List.not_mem_nil).2
  have htext : (fixText (fixText text).text).text = (fixText text).text := by
    rw [text_fixText (fixText text).text, hresults, List.map_map, joinedLike]
    simp only [hlast]
    rfl
  have hkeys : (fixText (fixText text).text).emptyKeys = (fixText text).emptyKeys := by
    change (results (fixText text).text).filterMap (·.emptyKey) =
      (results text).filterMap (·.emptyKey)
    rw [hresults, List.filterMap_map]
    rfl
  have hquoted : (fixText (fixText text).text).quotedDecimals = 0 := by
    change (results (fixText text).text).countP (·.quoted) = 0
    rw [hresults, List.countP_map, List.countP_eq_zero]
    exact fun result _ => Bool.false_ne_true
  calc fixText (fixText text).text
      = ⟨(fixText (fixText text).text).text, (fixText (fixText text).text).emptyKeys,
          (fixText (fixText text).text).quotedDecimals⟩ := rfl
    _ = ⟨(fixText text).text, (fixText text).emptyKeys, 0⟩ := by rw [htext, hkeys, hquoted]

/-- The second pass finds the empty key again, and the decimal in its quotes. -/
theorem fixText_fixText_decimal :
    '\r' ∉ "a: 1,5\nb:\n".toList ∧
      fixText "a: 1,5\nb:\n".toList = ⟨"a: \"1,5\"\nb:\n".toList, [["b"]], 1⟩ ∧
      fixText "a: \"1,5\"\nb:\n".toList = ⟨"a: \"1,5\"\nb:\n".toList, [["b"]], 0⟩ := by
  have hreturn : '\r' ∉ "a: 1,5\nb:\n".toList := by decide
  have hfixed : fixText "a: 1,5\nb:\n".toList = ⟨"a: \"1,5\"\nb:\n".toList, [["b"]], 1⟩ := by decide
  have hsettled := fixText_fixText hreturn
  rw [hfixed] at hsettled
  exact ⟨hreturn, hfixed, hsettled⟩

end RamlDoc.Fixup
