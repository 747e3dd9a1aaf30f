import Mathlib.Data.List.TakeWhile
import RamlDoc.Proofs.LinesAligned
import RamlDoc.Proofs.Outlines
import RamlDoc.Proofs.RecordedKeys

/-!
# The text pass over an outline

The text pass leaves a text that shows an outline as it is, and records the paths of just the keys
without a value that are not inside a sequence (`fixText_of_shows`). Blank lines and comments change
nothing, so the lines of the outline may be passed over alone. Behind the lines of a part of it the
stack holds, but for deeper levels, what it held in front of them (`StandsAt`): the one fact that the
induction on the outline carries.
-/

namespace RamlDoc.Fixup

/-! ## Texts that stay as they are -/

section

variable {state : PassState} {line fixed : List Char} {lines following : List (List Char)}

theorem quotedDecimal?_eq_none_of_comma (h : ',' ∉ line) : quotedDecimal? line = none := by
  rw [Option.eq_none_iff_forall_ne_some]
  intro fixed hfixed
  obtain ⟨-, hdecimal, -⟩ := quotedDecimal?_eq_some_iff.1 hfixed
  have hcomma := Yaml.comma_mem_of_isDecimal hdecimal
  exact h (by simp [hcomma])

theorem quotedDecimal?_eq_none_of_sign (h : '#' ∈ line) : quotedDecimal? line = none := by
  rw [Option.eq_none_iff_forall_ne_some]
  intro fixed hfixed
  obtain ⟨hfront, hdecimal, hafter⟩ := quotedDecimal?_eq_some_iff.1 hfixed
  simp only [List.mem_append] at h
  rcases h with h | h | h
  · exact hfront.not_mem_sign h
  · exact absurd (Yaml.digit_or_comma_of_isDecimal hdecimal h) (by decide)
  · exact absurd (hafter _ h) (by decide)

theorem quoted_passLine (h : quotedDecimal? line = none) :
    (passLine state line following).2.quoted = false := by
  rcases text_passLine_cases state line following with hkept | hquoted
  · exact hkept.1
  · cases h.symm.trans hquoted.2

theorem countP_quoted_passLines (h : ∀ line ∈ lines, quotedDecimal? line = none) :
    (passLines state lines).countP (·.quoted) = 0 := by
  induction lines generalizing state with
  | nil => rfl
  | cons line following ih =>
    obtain ⟨hline, hfollowing⟩ := List.forall_mem_cons.1 h
    rw [passLines, List.countP_cons_of_neg (by simp [quoted_passLine hline]), ih hfollowing]

theorem map_text_passLines (h : ∀ line ∈ lines, quotedDecimal? line = none) :
    (passLines state lines).map (·.text) = lines := by
  have hfixed := fixedLines_passLines state lines
  generalize (passLines state lines).map (·.text) = fixed at hfixed
  induction hfixed with
  | nil => rfl
  | cons hline _ ih =>
    obtain ⟨hnone, hrest⟩ := List.forall_mem_cons.1 h
    rw [ih hrest]
    rcases hline with rfl | hsome
    · rfl
    · cases hnone.symm.trans hsome

/-- The lines of a text put together again are the text, unless a line ends with a carriage
return. -/
theorem eq_of_relined {before text joined : List Char} (h : Relined Eq before text lines joined)
    (hfeeds : ¬['\r', '\n'] <:+: before.reverse ++ text) : joined = before.reverse ++ text := by
  induction h with
  | nil => rfl
  | last _ hline => rw [← hline, List.append_nil]
  | @feed before fixed text joined _ hline hrest ih =>
    have hreturn : Text.dropReturn before.reverse = before.reverse := by
      refine if_neg fun hlast => hfeeds ?_
      obtain ⟨front, hfront⟩ := List.getLast?_eq_some_iff.1 hlast
      exact ⟨front, text, by simp [hfront]⟩
    rw [← hline, hreturn, ih]
    · rfl
    · rintro ⟨front, back, hfront⟩
      refine hfeeds ⟨before.reverse ++ '\n' :: front, back, ?_⟩
      rw [← List.nil_append text, ← List.reverse_nil, ← hfront]
      simp
  | @char c before text _ _ hc hrest ih =>
    have happend : before.reverse ++ c :: text = (c :: before).reverse ++ text := by simp
    rw [happend] at hfeeds ⊢
    exact ih hfeeds

/-- The pass leaves a text without decimals to quote, unless a line ends with a carriage return. -/
theorem fixText_eq {text : List Char} (hfeeds : ¬['\r', '\n'] <:+: text)
    (h : ∀ line ∈ Text.lines text, quotedDecimal? line = none) :
    fixText text = ⟨text, (results text).filterMap (·.emptyKey), 0⟩ := by
  have htext : (fixText text).text = text := by
    rw [text_fixText, results, map_text_passLines h]
    exact eq_of_relined (relined_joinedLike (List.forall₂_refl _)) hfeeds
  have hquoted : (fixText text).quotedDecimals = 0 := countP_quoted_passLines h
  calc fixText text
      = ⟨(fixText text).text, (fixText text).emptyKeys, (fixText text).quotedDecimals⟩ := rfl
    _ = ⟨text, (fixText text).emptyKeys, 0⟩ := by rw [htext, hquoted]

end

/-! ## The paths recorded on some lines -/

/-- The paths that are recorded on some lines, given the lines after them. -/
def recordedKeys (state : PassState) (after : List (List Char)) : List (List Char) → List KeyPath
  | [] => []
  | line :: lines =>
    (passLine state line (lines ++ after)).2.emptyKey.toList ++
      recordedKeys (passLine state line []).1 after lines

section

variable {state : PassState} {line : List Char} {lines more after following : List (List Char)}
  {indent : Nat}

theorem filterMap_emptyKey_passLines :
    (passLines state lines).filterMap (·.emptyKey) = recordedKeys state [] lines := by
  induction lines generalizing state with
  | nil => rfl
  | cons line lines ih =>
    rw [passLines, recordedKeys, List.append_nil, List.filterMap_cons, ih, passLine_fst_eq]
    cases (passLine state line lines).2.emptyKey <;> rfl

theorem recordedKeys_append :
    recordedKeys state after (lines ++ more) =
      recordedKeys state (more ++ after) lines ++
        recordedKeys (stateAfter state lines) after more := by
  induction lines generalizing state with
  | nil => rfl
  | cons line lines ih =>
    rw [List.cons_append, recordedKeys, recordedKeys, ih, List.append_assoc, List.append_assoc]
    rfl

theorem stateAfter_append : stateAfter state (lines ++ more) = stateAfter (stateAfter state lines) more :=
  List.foldl_append

/-- Lines that do not belong to an entry do not belong to one further right. -/
theorem hasBlockBelow_of_lt {inner : Nat} (hlt : indent < inner)
    (h : hasBlockBelow indent following = false) : hasBlockBelow inner following = false := by
  unfold hasBlockBelow at h ⊢
  split at h
  · rfl
  next next _ =>
    simp only [Bool.or_eq_false_iff, Bool.and_eq_false_iff, decide_eq_false_iff_not] at h ⊢
    omega

end

/-! ## Blank lines and comments -/

namespace Outline

variable {state : PassState} {blanks comment : List Char} {content lines : List (List Char)}

theorem isSkipped_of_blank (h : ∀ c ∈ blanks, Text.isBlank c = true) : isSkipped blanks = true := by
  have hnil : Text.trimStart blanks = [] := List.dropWhile_eq_nil_iff.2 h
  rw [isSkipped, hnil]

theorem isSkipped_of_comment (h : ∀ c ∈ blanks, Text.isBlank c = true) :
    isSkipped (blanks ++ '#' :: comment) = true := by
  have hsign : Text.trimStart (blanks ++ '#' :: comment) = '#' :: comment := by
    rw [Text.trimStart, List.dropWhile_append_of_pos h]
    rfl
  rw [isSkipped, hsign]
  rfl

theorem hasBlockBelow_of_padded (h : Padded content lines) (indent : Nat) :
    hasBlockBelow indent lines = hasBlockBelow indent content := by
  induction h with
  | nil => rfl
  | line line _ ih =>
    cases hskip : isSkipped line with
    | true => rw [hasBlockBelow_of_skipped hskip, hasBlockBelow_of_skipped hskip, ih]
    | false => rw [hasBlockBelow_cons hskip, hasBlockBelow_cons hskip]
  | blank hblanks _ ih => rw [hasBlockBelow_of_skipped (isSkipped_of_blank hblanks), ih]
  | comment hblanks _ _ ih => rw [hasBlockBelow_of_skipped (isSkipped_of_comment hblanks), ih]

theorem recordedKeys_of_skipped {line : List Char} (h : isSkipped line = true) :
    recordedKeys state [] (line :: lines) = recordedKeys state [] lines := by
  have hpass : ∀ following, passLine state line following = (state, .unchanged line) :=
    fun following => passLine_of_not_seen (by rw [h]; rfl)
  rw [recordedKeys, hpass, hpass]
  rfl

/-- Blank lines and comments do not change what is recorded. -/
theorem recordedKeys_of_padded (h : Padded content lines) :
    recordedKeys state [] lines = recordedKeys state [] content := by
  induction h generalizing state with
  | nil => rfl
  | line line hpadded ih =>
    rw [recordedKeys, recordedKeys, ih, List.append_nil, List.append_nil,
      passLine_congr (hasBlockBelow_of_padded hpadded _)]
  | blank hblanks _ ih => rw [recordedKeys_of_skipped (isSkipped_of_blank hblanks), ih]
  | comment hblanks _ _ ih => rw [recordedKeys_of_skipped (isSkipped_of_comment hblanks), ih]

/-- There is nothing to quote on a blank line or a comment. -/
theorem quotedDecimal?_of_padded (h : Padded content lines)
    (hcontent : ∀ line ∈ content, quotedDecimal? line = none) :
    ∀ line ∈ lines, quotedDecimal? line = none := by
  induction h with
  | nil => exact hcontent
  | line line _ ih =>
    obtain ⟨hline, hcontent⟩ := List.forall_mem_cons.1 hcontent
    exact List.forall_mem_cons.2 ⟨hline, ih hcontent⟩
  | blank hblanks _ ih =>
    refine List.forall_mem_cons.2 ⟨quotedDecimal?_eq_none_of_comma fun hmem => ?_, ih hcontent⟩
    exact absurd (hblanks _ hmem) (by decide)
  | @comment blanks hblanks comment _ _ _ ih =>
    exact List.forall_mem_cons.2 ⟨quotedDecimal?_eq_none_of_sign (by simp), ih hcontent⟩

/-! ## The keys around a line -/

section

variable {state : PassState} {levels : List (Nat × Option String)} {indent inner : Nat}
  {line after : List (List Char)} {name : String}

/-- The path that some levels make, unless there is an item among them. -/
def around (levels : List (Nat × Option String)) : Option KeyPath := levels.reverse.mapM Prod.snd

/-- The paths of keys below some levels, given the path to them. There are none below an item. -/
def keysBelow (levels : List (Nat × Option String)) (keys : KeyPath → List KeyPath) : List KeyPath :=
  (around levels).elim [] keys

theorem around_key : around ((indent, some name) :: levels) = (around levels).map (· ++ [name]) := by
  unfold around
  rw [List.reverse_cons, List.mapM_append]
  cases levels.reverse.mapM Prod.snd <;> rfl

theorem around_item : around ((indent, none) :: levels) = none := by
  unfold around
  rw [List.reverse_cons, List.mapM_append]
  cases levels.reverse.mapM Prod.snd <;> rfl

theorem keysBelow_key (keys : KeyPath → List KeyPath) :
    keysBelow ((indent, some name) :: levels) keys =
      keysBelow levels fun path => keys (path ++ [name]) := by
  unfold keysBelow
  rw [around_key]
  cases around levels <;> rfl

theorem keysBelow_item (keys : KeyPath → List KeyPath) :
    keysBelow ((indent, none) :: levels) keys = [] := by
  rw [keysBelow, around_item]
  rfl

theorem keysBelow_nil : keysBelow levels (fun _ => []) = [] := by
  unfold keysBelow
  cases around levels <;> rfl

theorem keysBelow_append (keys more : KeyPath → List KeyPath) :
    keysBelow levels (fun path => keys path ++ more path) =
      keysBelow levels keys ++ keysBelow levels more := by
  unfold keysBelow
  cases around levels <;> rfl

/-- A state in which a line at an indentation finds some levels around it. -/
structure StandsAt (state : PassState) (indent : Nat) (levels : List (Nat × Option String)) :
    Prop where
  closed : state.block = none
  leaves : (state.enclosing.dropWhile fun level => indent ≤ level.1) = levels

theorem dropWhile_dropWhile_of_imp {α : Type} {p q : α → Bool} (h : ∀ x, q x = true → p x = true)
    (xs : List α) : (xs.dropWhile q).dropWhile p = xs.dropWhile p := by
  induction xs with
  | nil => rfl
  | cons x xs ih =>
    cases hq : q x with
    | true => rw [List.dropWhile_cons_of_pos hq, List.dropWhile_cons_of_pos (h x hq), ih]
    | false => rw [List.dropWhile_cons_of_neg (by simp [hq])]

/-- A line that is not further right leaves the levels around the lines before it. -/
theorem StandsAt.out (h : StandsAt state inner levels) (hle : indent ≤ inner) :
    StandsAt state indent (levels.dropWhile fun level => indent ≤ level.1) := by
  refine ⟨h.closed, ?_⟩
  rw [← h.leaves, dropWhile_dropWhile_of_imp]
  intro level hlevel
  simp only [decide_eq_true_eq] at hlevel ⊢
  omega

theorem StandsAt.dropWhile_eq (h : StandsAt state indent levels) :
    (levels.dropWhile fun level => indent ≤ level.1) = levels := by
  rw [← h.leaves, dropWhile_dropWhile_of_imp fun _ hlevel => hlevel]

theorem StandsAt.leave_eq (h : StandsAt state indent levels) :
    state.leave indent = ⟨levels, none⟩ := by
  rw [PassState.leave, h.leaves]

theorem StandsAt.covers_eq (h : StandsAt state indent levels) (indent' : Nat) :
    state.covers indent' = false := by
  rw [PassState.covers, h.closed]
  rfl

end

/-! ## What a line of an outline does -/

section

variable {state : PassState} {levels : List (Nat × Option String)} {indent gap : Nat}
  {line : List Char} {after : List (List Char)} {key word : Word} {value : Value}

/-- A line opens an entry at a column below some levels: behind it stands the key, and it records
the path of the key if nothing stands behind that and no block below. -/
structure Opens (state : PassState) (line : List Char) (indent : Nat)
    (levels : List (Nat × Option String)) (key : Word) (value : Value) : Prop where
  outside : (levels.dropWhile fun level => indent ≤ level.1) = levels
  behind : (passLine state line []).1 = ⟨(indent, some key.text) :: levels, none⟩
  records : ∀ following, (passLine state line following).2.emptyKey =
    if value.shown.isEmpty && !hasBlockBelow indent following then
      (around levels).map (· ++ [key.text])
    else none

theorem opens_entryLine (key : Word) (value : Value) (h : StandsAt state indent levels) :
    Opens state (entryLine indent key value) indent levels key value := by
  have hentry : entry? (entryLine indent key value) = some (key.chars, value.shown) :=
    entry?_spaces_entryText indent
  have hvalue : (if value.shown.head? = some '#' then [] else value.shown) = value.shown := by
    refine if_neg fun hsign => ?_
    exact absurd (value.head?_shown _ hsign) (by decide)
  have hpass : ∀ following, passLine state (entryLine indent key value) following =
      afterEntry ⟨levels, none⟩ (entryLine indent key value) key.chars value.shown following := by
    intro following
    rw [passLine, isSkipped_entryLine, h.covers_eq, indentation_entryLine, h.leave_eq]
    simp only [Bool.or_self, Bool.false_eq_true, if_false, isItem_entryLine, hentry]
  refine ⟨h.dropWhile_eq, ?_, fun following => ?_⟩
  · rw [hpass, afterEntry]
    dsimp only
    rw [hvalue, opensBlock_eq_false value.head?_shown, key.unquoted_chars, indentation_entryLine]
    rfl
  · rw [hpass, afterEntry]
    dsimp only
    rw [hvalue, key.unquoted_chars, indentation_entryLine]
    rfl

theorem passLine_itemLine (h : StandsAt state indent levels) (content : List Char)
    (following : List (List Char)) :
    passLine state (itemLine indent gap content) following =
      (afterItem ⟨levels, none⟩ (itemLine indent gap content),
        .unchanged (itemLine indent gap content)) := by
  rw [passLine, isSkipped_itemLine, h.covers_eq, indentation_itemLine, h.leave_eq]
  simp only [Bool.or_self, Bool.false_eq_true, if_false, isItem_itemLine, if_true]

/-- The entry on the line of a dash stands at the column of the item. -/
theorem opens_itemLine (gap : Nat) (key : Word) (value : Value) (h : StandsAt state indent levels) :
    Opens state (itemLine indent gap (entryText key value)) (indent + gap + 2)
      ((indent, none) :: levels) key value := by
  have hentry : entry? (entryText key value) = some (key.chars, value.shown) :=
    entry?_spaces_entryText 0
  refine ⟨List.dropWhile_cons_of_neg (by simp; omega), ?_, fun following => ?_⟩
  · rw [passLine_itemLine h, afterItem]
    dsimp only
    rw [trimStart_drop_itemLine isBlank_head_entryText, opensBlock_eq_false head?_entryText, hentry,
      byteLength_itemLine, indentation_itemLine]
    simp only [Bool.false_eq_true, if_false, opensBlock_eq_false value.head?_shown,
      key.unquoted_chars]
  · rw [passLine_itemLine h, around_item]
    simp [LineResult.unchanged]

theorem standsAt_plain (h : StandsAt state indent levels) :
    StandsAt (passLine state (itemLine indent gap word.chars) []).1 indent levels := by
  have hblank : ∀ c ∈ word.chars.head?, Text.isBlank c = false :=
    fun c hc => isBlank_of_isLetter (word.isLetter_head c hc)
  have hbehind : (passLine state (itemLine indent gap word.chars) []).1 =
      ⟨(indent, none) :: levels, none⟩ := by
    rw [passLine_itemLine h, afterItem]
    dsimp only
    rw [trimStart_drop_itemLine hblank, opensBlock_eq_false word.isLetter_head, word.entry?_chars,
      indentation_itemLine]
    rfl
  rw [hbehind]
  refine ⟨rfl, ?_⟩
  rw [List.dropWhile_cons_of_pos (by simp), h.dropWhile_eq]

/-- The state inside an entry. -/
theorem Opens.standsAt_inside (h : Opens state line indent levels key value) {inner : Nat}
    (hlt : indent < inner) :
    StandsAt (passLine state line []).1 inner ((indent, some key.text) :: levels) := by
  rw [h.behind]
  exact ⟨rfl, List.dropWhile_cons_of_neg (by simpa using hlt)⟩

/-- Behind the lines of an entry its own level is left again. -/
theorem Opens.standsAt_out (h : Opens state line indent levels key value) {final : PassState}
    {inner : Nat} (hle : indent ≤ inner)
    (hfinal : StandsAt final inner ((indent, some key.text) :: levels)) :
    StandsAt final indent levels := by
  have hout := hfinal.out hle
  rwa [List.dropWhile_cons_of_pos (by simp), h.outside] at hout

theorem Opens.standsAt (h : Opens state line indent levels key value) :
    StandsAt (passLine state line []).1 indent levels :=
  h.standsAt_out (Nat.le_succ _) (h.standsAt_inside (Nat.lt_succ_self _))

/-- Inside an entry, at its column or further right, stand levels that are left behind it. -/
theorem Opens.exists_standsAt (h : Opens state line indent levels key value) (offset : Nat) :
    ∃ inside, StandsAt (passLine state line []).1 (indent + offset) inside ∧
      ∀ final, StandsAt final (indent + offset) inside → StandsAt final indent levels := by
  cases offset with
  | zero => exact ⟨levels, h.standsAt, fun _ hfinal => hfinal⟩
  | succ offset =>
    exact ⟨_, h.standsAt_inside (by omega), fun _ hfinal => h.standsAt_out (by omega) hfinal⟩

end

/-! ## The keys that a whole outline records -/

/-- Behind the lines of an entry the levels around it are the same, and just the paths of its keys
without a value are recorded. -/
def Value.Recorded (value : Value) : Prop :=
  ∀ (after : List (List Char)) {state line indent levels key},
    Opens state line indent levels key value →
    ((around levels).isSome → hasBlockBelow indent after = false) →
    recordedKeys state after (line :: value.linesBelow indent) =
        keysBelow levels (fun path => value.emptyKeys (path ++ [key.text])) ∧
      StandsAt (stateAfter state (line :: value.linesBelow indent)) indent levels

/-- The same for entries. -/
def Entries.Recorded (entries : Entries) : Prop :=
  ∀ (after : List (List Char)) {state indent levels}, StandsAt state indent levels →
    ((around levels).isSome → hasBlockBelow indent after = false) →
    recordedKeys state after (entries.lines indent) = keysBelow levels entries.emptyKeys ∧
      StandsAt (stateAfter state (entries.lines indent)) indent levels

/-- The same for an item, where nothing is recorded. -/
def Item.Passed (item : Item) : Prop :=
  ∀ (after : List (List Char)) {state indent levels}, StandsAt state indent levels →
    recordedKeys state after (item.lines indent) = [] ∧
      StandsAt (stateAfter state (item.lines indent)) indent levels

/-- The same for items. -/
def Items.Passed (items : Items) : Prop :=
  ∀ (after : List (List Char)) {state indent levels}, StandsAt state indent levels →
    recordedKeys state after (items.lines indent) = [] ∧
      StandsAt (stateAfter state (items.lines indent)) indent levels

section

variable {state : PassState} {levels : List (Nat × Option String)} {indent : Nat} {line : List Char}
  {lines more after : List (List Char)} {key : Word} {value : Value} {rest : Entries}

/-- No line of the next entry belongs to the entry before. -/
theorem Entries.hasBlockBelow_lines_append (entries : Entries)
    (h : hasBlockBelow indent after = false) :
    hasBlockBelow indent (entries.lines indent ++ after) = false := by
  cases entries with
  | nil => exact h
  | cons key value rest =>
    rw [lines, List.cons_append, hasBlockBelow_cons isSkipped_entryLine, indentation_entryLine,
      isItem_entryLine]
    simp

/-- An entry and those behind it. -/
theorem recorded_cons (after : List (List Char)) (hvalue : value.Recorded) (hrest : rest.Recorded)
    (hopens : Opens state line indent levels key value)
    (hafter : (around levels).isSome → hasBlockBelow indent after = false) :
    recordedKeys state after (line :: (value.linesBelow indent ++ rest.lines indent)) =
        keysBelow levels
          (fun path => value.emptyKeys (path ++ [key.text]) ++ rest.emptyKeys path) ∧
      StandsAt (stateAfter state (line :: (value.linesBelow indent ++ rest.lines indent))) indent
        levels := by
  obtain ⟨hkeys, hstands⟩ := hvalue (rest.lines indent ++ after) hopens
    fun hsome => rest.hasBlockBelow_lines_append (hafter hsome)
  obtain ⟨hkeys', hstands'⟩ := hrest after hstands hafter
  rw [← List.cons_append, recordedKeys_append, stateAfter_append, hkeys, hkeys', keysBelow_append]
  exact ⟨rfl, hstands'⟩

/-- With lines below it, an entry records nothing itself. -/
theorem recordedKeys_of_below (hopens : Opens state line indent levels key value)
    (hbelow : hasBlockBelow indent (lines ++ after) = true) :
    recordedKeys state after (line :: lines) = recordedKeys (passLine state line []).1 after lines := by
  rw [recordedKeys, hopens.records, hbelow, Bool.not_true, Bool.and_false]
  rfl

/-- The first line of an item belongs to a key at its indentation or further left. -/
theorem Item.hasBlockBelow_lines_append (item : Item) (offset : Nat) (after : List (List Char)) :
    hasBlockBelow indent (item.lines (indent + offset) ++ after) = true := by
  have hitem : ∀ gap content lines,
      hasBlockBelow indent (itemLine (indent + offset) gap content :: lines) = true := by
    intro gap content lines
    rw [hasBlockBelow_cons isSkipped_itemLine, indentation_itemLine, isItem_itemLine]
    cases offset with
    | zero => simp
    | succ offset => simp
  cases item with
  | plain gap word => exact hitem _ _ _
  | mapping gap key value rest => exact hitem _ _ _

end

mutual

theorem Value.recorded (value : Value) : value.Recorded := by
  intro after state line indent levels key hopens hafter
  cases value with
  | empty =>
    refine ⟨?_, hopens.standsAt⟩
    rw [Value.linesBelow, recordedKeys, hopens.records, keysBelow]
    cases haround : around levels with
    | none => simp [recordedKeys]
    | some path =>
      have halone : hasBlockBelow indent after = false := hafter (by rw [haround]; rfl)
      simp [recordedKeys, Value.shown, Value.emptyKeys, halone]
  | plain gap word =>
    refine ⟨?_, hopens.standsAt⟩
    rw [Value.linesBelow, recordedKeys, hopens.records, keysBelow]
    cases around levels <;> simp [recordedKeys, Value.shown, Value.emptyKeys, word.ne_nil]
  | mapping step inner value rest =>
    have hlt : indent < indent + step + 1 := by omega
    have hbelow : hasBlockBelow indent
        ((Value.mapping step inner value rest).linesBelow indent ++ after) = true := by
      rw [Value.linesBelow, List.cons_append, hasBlockBelow_cons isSkipped_entryLine,
        indentation_entryLine]
      simp [hlt]
    have hinside := opens_entryLine inner value (hopens.standsAt_inside hlt)
    obtain ⟨hkeys, hstands⟩ := recorded_cons after value.recorded rest.recorded hinside
      fun hsome => hasBlockBelow_of_lt hlt (hafter (by
        rw [around_key, Option.isSome_map] at hsome
        exact hsome))
    refine ⟨?_, hopens.standsAt_out (by omega) hstands⟩
    rw [recordedKeys_of_below hopens hbelow, Value.linesBelow, hkeys, keysBelow_key]
    rfl
  | sequence offset first rest =>
    have hbelow : hasBlockBelow indent
        ((Value.sequence offset first rest).linesBelow indent ++ after) = true := by
      rw [Value.linesBelow, List.append_assoc]
      exact first.hasBlockBelow_lines_append offset _
    obtain ⟨inside, hinside, hout⟩ := hopens.exists_standsAt offset
    obtain ⟨hkeys, hstands⟩ := first.passed (rest.lines (indent + offset) ++ after) hinside
    obtain ⟨hkeys', hstands'⟩ := rest.passed after hstands
    rw [recordedKeys_of_below hopens hbelow, Value.linesBelow, recordedKeys_append, hkeys, hkeys']
    refine ⟨keysBelow_nil.symm, hout _ ?_⟩
    rwa [← stateAfter_append] at hstands'

theorem Entries.recorded (entries : Entries) : entries.Recorded := by
  intro after state indent levels hstands hafter
  cases entries with
  | nil => exact ⟨keysBelow_nil.symm, hstands⟩
  | cons key value rest =>
    exact recorded_cons after value.recorded rest.recorded (opens_entryLine key value hstands) hafter

theorem Item.passed (item : Item) : item.Passed := by
  intro after state indent levels hstands
  cases item with
  | plain gap word =>
    refine ⟨?_, standsAt_plain hstands⟩
    rw [Item.lines, recordedKeys, passLine_itemLine hstands]
    rfl
  | mapping gap key value rest =>
    obtain ⟨hkeys, hstands'⟩ := recorded_cons after value.recorded rest.recorded
      (opens_itemLine gap key value hstands)
      fun hsome => by cases around_item ▸ hsome
    refine ⟨hkeys.trans (keysBelow_item _), ?_⟩
    have hout := hstands'.out (by omega : indent ≤ indent + gap + 2)
    rwa [List.dropWhile_cons_of_pos (by simp), hstands.dropWhile_eq] at hout

theorem Items.passed (items : Items) : items.Passed := by
  intro after state indent levels hstands
  cases items with
  | nil => exact ⟨rfl, hstands⟩
  | cons item rest =>
    obtain ⟨hkeys, hstands⟩ := item.passed (rest.lines indent ++ after) hstands
    obtain ⟨hkeys', hstands'⟩ := rest.passed after hstands
    rw [Items.lines, recordedKeys_append, stateAfter_append, hkeys, hkeys']
    exact ⟨rfl, hstands'⟩

end

/-- The text pass leaves a text that shows an outline, quotes nothing in it, and records the paths of
the keys without a value that are not inside a sequence, in order. -/
theorem fixText_of_shows {text : List Char} {indent : Nat} {outline : Entries}
    (h : Shows text indent outline) : fixText text = ⟨text, outline.emptyKeys [], 0⟩ := by
  have hcontent : ∀ line ∈ outline.lines indent, quotedDecimal? line = none :=
    fun line hline => quotedDecimal?_eq_none_of_comma (outline.not_mem_comma_of_lines indent hline)
  have hstart : StandsAt .start indent [] := ⟨rfl, rfl⟩
  obtain ⟨hkeys, -⟩ := outline.recorded [] hstart fun _ => rfl
  rw [fixText_eq h.feeds (quotedDecimal?_of_padded h.padded hcontent), results,
    filterMap_emptyKey_passLines, recordedKeys_of_padded h.padded, hkeys]
  rfl

/-- A text with two keys without a value, and a third inside a sequence. -/
def usersText : List Char :=
  "users:\n\n # notes\n  name:\n  roles:\n  - admin\n  - label:\n    level: high\ntitle:\n".toList

/-- The outline that it shows. -/
def usersOutline : Entries :=
  .cons (.ofText "users" rfl rfl)
    (.mapping 1 (.ofText "name" rfl rfl) .empty <|
      .cons (.ofText "roles" rfl rfl)
        (.sequence 0 (.plain 0 (.ofText "admin" rfl rfl)) <|
          .cons (.mapping 0 (.ofText "label" rfl rfl) .empty <|
            .cons (.ofText "level" rfl rfl)
              (.plain 0 (.ofText "high" rfl rfl)) .nil) .nil)
        .nil) <|
    .cons (.ofText "title" rfl rfl) .empty .nil

theorem shows_users : Shows usersText 0 usersOutline := by
  have houtline : usersOutline.lines 0 = ["users:".toList, "  name:".toList, "  roles:".toList,
      "  - admin".toList, "  - label:".toList, "    level: high".toList, "title:".toList] := by
    decide
  have htext : Text.lines usersText = ["users:".toList, [], [' '] ++ '#' :: " notes".toList,
      "  name:".toList, "  roles:".toList, "  - admin".toList, "  - label:".toList,
      "    level: high".toList, "title:".toList] := by
    decide
  have hblanks : ∀ c ∈ [' '], Text.isBlank c = true := List.forall_mem_singleton.2 rfl
  have hreturn : '\r' ∉ usersText := by decide
  refine ⟨?_, fun hreturns => hreturn (hreturns.subset List.mem_cons_self)⟩
  rw [houtline, htext]
  exact .line _ <| .blank (by simp) <| .comment hblanks _ <| .line _ <| .line _ <| .line _ <|
    .line _ <| .line _ <| .line _ .nil

/-- The key in the sequence is not recorded. -/
theorem fixText_users :
    Shows usersText 0 usersOutline ∧
      fixText usersText = ⟨usersText, [["users", "name"], ["title"]], 0⟩ :=
  ⟨shows_users, fixText_of_shows shows_users⟩

end Outline

end RamlDoc.Fixup
