import RamlDoc.Fixup.TextPass

/-!
# Outlines

An outline is a tree of block mappings with words as keys. Behind a key stands nothing, a word, a
block mapping or a block sequence of words and mappings. With each part goes how it is laid out: how
far a block is set in and how wide the gaps are. An outline has its lines from this
(`Outline.Entries.lines`), and the paths of its keys without a value (`Outline.Entries.emptyKeys`).
A text shows an outline if blank lines and comments apart it has just these lines
(`Outline.Shows`).
-/

namespace RamlDoc.Fixup.Outline

/-- Whether a character may stand in a word: an ASCII letter, or any character beyond ASCII that is
not blank. -/
def isLetter (c : Char) : Bool := c.isAlpha || (127 < c.toNat && !Text.isBlank c)

/-- A word of letters. -/
structure Word where
  chars : List Char
  ne_nil : chars ≠ []
  letters : ∀ c ∈ chars, isLetter c = true

/-- The word in a text of letters. -/
def Word.ofText (text : String) (hne : text.toList.isEmpty = false)
    (hletters : text.toList.all isLetter = true) : Word :=
  ⟨text.toList, by simpa using hne, List.all_eq_true.1 hletters⟩

/-- The text of a word. -/
def Word.text (word : Word) : String := String.ofList word.chars

mutual

/-- What stands behind a key: a word after a gap of one space and more, a mapping that is set in by
one column and more, or a sequence that may stand at the column of the key. -/
inductive Value
  | empty
  | plain (gap : Nat) (word : Word)
  | mapping (step : Nat) (key : Word) (value : Value) (rest : Entries)
  | sequence (offset : Nat) (first : Item) (rest : Items)

/-- The entries of a mapping. -/
inductive Entries
  | nil
  | cons (key : Word) (value : Value) (rest : Entries)

/-- An item of a sequence, after its dash and a gap of one space and more. -/
inductive Item
  | plain (gap : Nat) (word : Word)
  | mapping (gap : Nat) (key : Word) (value : Value) (rest : Entries)

/-- The items of a sequence behind the first. -/
inductive Items
  | nil
  | cons (item : Item) (rest : Items)

end

/-! ## The lines of an outline -/

/-- A number of spaces. -/
def spaces (count : Nat) : List Char := List.replicate count ' '

/-- What stands on the line of the key behind its colon. -/
def Value.onLine : Value → List Char
  | .plain gap word => spaces (gap + 1) ++ word.chars
  | _ => []

/-- An entry on its line, without the lines below. -/
def entryText (key : Word) (value : Value) : List Char := key.chars ++ ':' :: value.onLine

/-- The line of an entry. -/
def entryLine (indent : Nat) (key : Word) (value : Value) : List Char :=
  spaces indent ++ entryText key value

/-- The line of an item, given its content. -/
def itemLine (indent gap : Nat) (content : List Char) : List Char :=
  spaces indent ++ '-' :: (spaces (gap + 1) ++ content)

mutual

/-- The lines below a key. -/
def Value.linesBelow (indent : Nat) : Value → List (List Char)
  | .empty | .plain _ _ => []
  | .mapping step key value rest =>
    entryLine (indent + step + 1) key value ::
      (value.linesBelow (indent + step + 1) ++ rest.lines (indent + step + 1))
  | .sequence offset first rest =>
    first.lines (indent + offset) ++ rest.lines (indent + offset)

/-- The lines of entries. -/
def Entries.lines (indent : Nat) : Entries → List (List Char)
  | .nil => []
  | .cons key value rest =>
    entryLine indent key value :: (value.linesBelow indent ++ rest.lines indent)

/-- The lines of an item. The first entry of a mapping stands on the line of the dash, all others at
its column. -/
def Item.lines (indent : Nat) : Item → List (List Char)
  | .plain gap word => [itemLine indent gap word.chars]
  | .mapping gap key value rest =>
    itemLine indent gap (entryText key value) ::
      (value.linesBelow (indent + gap + 2) ++ rest.lines (indent + gap + 2))

/-- The lines of items. -/
def Items.lines (indent : Nat) : Items → List (List Char)
  | .nil => []
  | .cons item rest => item.lines indent ++ rest.lines indent

end

mutual

/-- The paths of the keys without a value from a key on, given its own path. What lies inside a
sequence has none. -/
def Value.emptyKeys (path : KeyPath) : Value → List KeyPath
  | .empty => [path]
  | .plain _ _ => []
  | .mapping _ key value rest => value.emptyKeys (path ++ [key.text]) ++ rest.emptyKeys path
  | .sequence _ _ _ => []

/-- The paths of the keys without a value among entries, given the path to them. -/
def Entries.emptyKeys (path : KeyPath) : Entries → List KeyPath
  | .nil => []
  | .cons key value rest => value.emptyKeys (path ++ [key.text]) ++ rest.emptyKeys path

end

/-- Some lines with blank lines and comments put in between. -/
inductive Padded : List (List Char) → List (List Char) → Prop
  | nil : Padded [] []
  | line (line : List Char) {content lines : List (List Char)} (h : Padded content lines) :
      Padded (line :: content) (line :: lines)
  | blank {blanks : List Char} (hblanks : ∀ c ∈ blanks, Text.isBlank c = true)
      {content lines : List (List Char)} (h : Padded content lines) :
      Padded content (blanks :: lines)
  | comment {blanks : List Char} (hblanks : ∀ c ∈ blanks, Text.isBlank c = true)
      (comment : List Char) {content lines : List (List Char)} (h : Padded content lines) :
      Padded content ((blanks ++ '#' :: comment) :: lines)

/-- A text shows an outline at an indentation: blank lines and comments apart its lines are those of
the outline, and they end with plain line feeds. -/
structure Shows (text : List Char) (indent : Nat) (outline : Entries) : Prop where
  padded : Padded (outline.lines indent) (Text.lines text)
  feeds : ¬['\r', '\n'] <:+: text

/-! ## Letters and spaces -/

section

variable {c d : Char} {count : Nat} {cs : List Char}

theorem isBlank_of_isLetter (h : isLetter c = true) : Text.isBlank c = false := by
  rw [isLetter, Bool.or_eq_true] at h
  rcases h with h | h
  · have hrange : (65 ≤ c.toNat ∧ c.toNat ≤ 90) ∨ (97 ≤ c.toNat ∧ c.toNat ≤ 122) := by
      delta Char.isAlpha Char.isUpper Char.isLower at h
      simpa [UInt32.le_iff_toNat_le] using h
    rw [Bool.eq_false_iff]
    intro hblank
    simp only [Text.isBlank, Bool.or_eq_true, Bool.and_eq_true, decide_eq_true_eq] at hblank
    omega
  · rw [Bool.and_eq_true, Bool.not_eq_true'] at h
    exact h.2

theorem isAsciiBlank_of_isLetter (h : isLetter c = true) : Text.isAsciiBlank c = false := by
  rw [Bool.eq_false_iff]
  intro hblank
  exact absurd (Text.isBlank_of_isAsciiBlank hblank) (by rw [isBlank_of_isLetter h]; decide)

theorem ne_of_isLetter (h : isLetter c = true) (hd : isLetter d = false) : c ≠ d := by
  rintro rfl
  exact absurd (h.symm.trans hd) (by decide)

theorem eq_of_mem_spaces (h : c ∈ spaces count) : c = ' ' := List.eq_of_mem_replicate h

theorem byteLength_spaces (count : Nat) : Text.byteLength (spaces count) = count := by
  induction count with
  | zero => rfl
  | succ count ih =>
    rw [spaces, List.replicate_succ, Text.byteLength_cons, ← spaces, ih, Nat.add_comm]
    rfl

theorem dropWhile_spaces {p : Char → Bool} (hp : p ' ' = true) (hcs : ∀ c ∈ cs.head?, p c = false) :
    (spaces count ++ cs).dropWhile p = cs :=
  Text.dropWhile_append_of_head (fun _ hc => eq_of_mem_spaces hc ▸ hp) hcs

theorem takeWhile_spaces {p : Char → Bool} (hp : p ' ' = true) (hcs : ∀ c ∈ cs.head?, p c = false) :
    (spaces count ++ cs).takeWhile p = spaces count :=
  Text.takeWhile_append_of_head (fun _ hc => eq_of_mem_spaces hc ▸ hp) hcs

theorem trimStart_spaces (hcs : ∀ c ∈ cs.head?, Text.isBlank c = false) :
    Text.trimStart (spaces count ++ cs) = cs :=
  dropWhile_spaces (by decide) hcs

theorem indentation_spaces (hcs : ∀ c ∈ cs.head?, Text.isBlank c = false) :
    indentation (spaces count ++ cs) = count := by
  rw [indentation, takeWhile_spaces (by decide) hcs, byteLength_spaces]

end

/-! ## Words and entries -/

section

variable {indent gap : Nat} {key word : Word} {value : Value} {c : Char}

theorem Word.exists_cons (word : Word) :
    ∃ first rest, word.chars = first :: rest ∧ isLetter first = true := by
  obtain ⟨first, rest, hchars⟩ := List.exists_cons_of_ne_nil word.ne_nil
  exact ⟨first, rest, hchars, word.letters first (hchars ▸ List.mem_cons_self)⟩

theorem Word.isLetter_head (word : Word) : ∀ c ∈ word.chars.head?, isLetter c = true :=
  fun c hc => word.letters c (List.mem_of_mem_head? hc)

theorem Word.trim_chars (word : Word) : Text.trim word.chars = word.chars :=
  Text.trim_eq_self_iff.2
    ⟨fun c hc => isBlank_of_isLetter (word.letters c (List.mem_of_mem_head? hc)),
      fun c hc => isBlank_of_isLetter (word.letters c (List.mem_of_getLast? hc))⟩

theorem Word.trimAscii_chars (word : Word) : trimAscii word.chars = word.chars := by
  have hblank : ∀ c ∈ word.chars, Text.isAsciiBlank c = false :=
    fun c hc => isAsciiBlank_of_isLetter (word.letters c hc)
  have hdrop : ∀ cs : List Char, (∀ c ∈ cs, Text.isAsciiBlank c = false) →
      cs.dropWhile Text.isAsciiBlank = cs := by
    intro cs hcs
    cases cs with
    | nil => rfl
    | cons c cs => exact List.dropWhile_cons_of_neg (by simp [hcs c List.mem_cons_self])
  rw [trimAscii, Text.dropTailWhile, hdrop _ hblank,
    hdrop _ fun c hc => hblank c (List.mem_reverse.1 hc), List.reverse_reverse]

theorem Word.insideQuotes?_chars (word : Word) {quote : Char} (hquote : isLetter quote = false) :
    insideQuotes? quote word.chars = none := by
  obtain ⟨first, rest, hchars, hfirst⟩ := word.exists_cons
  rw [hchars, insideQuotes?, Text.afterStart?, if_neg (ne_of_isLetter hfirst hquote).symm]
  rfl

/-- A word needs no quotes, so as a key it is its own name. -/
theorem Word.unquoted_chars (word : Word) : unquoted word.chars = word.text := by
  unfold unquoted
  dsimp only
  rw [word.trim_chars, word.insideQuotes?_chars (by decide), word.insideQuotes?_chars (by decide)]
  rfl

/-- What starts with a letter opens no block of lines. -/
theorem opensBlock_eq_false {cs : List Char} (h : ∀ c ∈ cs.head?, isLetter c = true) :
    opensBlock cs = false := by
  apply opensBlock_eq_false_of_head
  intro c hc
  have hne : ∀ d : Char, isLetter d = false → c ≠ d := fun d => ne_of_isLetter (h c hc)
  exact ⟨hne '|' (by decide), hne '>' (by decide), hne '[' (by decide), hne '\x7b' (by decide)⟩

/-- The letters of a key are passed before the colon is found. -/
theorem cutKey?_append {key before rest : List Char} (hkey : ∀ c ∈ key, isLetter c = true) :
    cutKey? before (key ++ rest) = cutKey? (key.reverse ++ before) rest := by
  induction key generalizing before with
  | nil => rfl
  | cons c key ih =>
    obtain ⟨hc, hkey⟩ := List.forall_mem_cons.1 hkey
    rw [List.cons_append, cutKey?, if_neg (ne_of_isLetter hc (by decide)),
      if_neg (by simp [ne_of_isLetter hc (by decide : isLetter ':' = false)]), ih hkey]
    simp

/-- What is read as the value of an entry that stands on a line by itself. -/
def Value.shown : Value → List Char
  | .plain _ word => word.chars
  | _ => []

/-- Behind the colon stands what the value shows on its line. -/
theorem Value.trimAscii_onLine (value : Value) : trimAscii value.onLine = value.shown := by
  cases value with
  | plain gap word =>
    have hdrop : (spaces (gap + 1) ++ word.chars).dropWhile Text.isAsciiBlank =
        word.chars.dropWhile Text.isAsciiBlank :=
      List.dropWhile_append_of_pos fun c hc => eq_of_mem_spaces hc ▸ rfl
    rw [onLine, trimAscii, hdrop, ← trimAscii, word.trimAscii_chars]
    rfl
  | _ => rfl

theorem head?_entryText : ∀ c ∈ (entryText key value).head?, isLetter c = true := by
  obtain ⟨first, rest, hchars, hfirst⟩ := key.exists_cons
  intro c hc
  rw [entryText, hchars] at hc
  cases hc
  exact hfirst

theorem isBlank_head_entryText : ∀ c ∈ (entryText key value).head?, Text.isBlank c = false :=
  fun c hc => isBlank_of_isLetter (head?_entryText c hc)

/-- The pass finds the key and the value that the line shows. -/
theorem entry?_spaces_entryText (count : Nat) :
    entry? (spaces count ++ entryText key value) = some (key.chars, value.shown) := by
  have hblank : value.onLine.head?.all Text.isAsciiBlank = true := by
    cases value <;> rfl
  rw [ entry?, dropWhile_spaces (by decide) fun c hc => isAsciiBlank_of_isLetter (head?_entryText c hc),
    entryText, cutKey?_append key.letters, cutKey?, if_neg (by decide),
    if_pos (by simpa [key.ne_nil] using hblank)]
  simp [value.trimAscii_onLine]

theorem Value.head?_shown : ∀ c ∈ value.shown.head?, isLetter c = true := by
  cases value with
  | plain gap word => exact word.isLetter_head
  | _ => nofun

/-- A word without a colon is no entry. -/
theorem Word.entry?_chars (word : Word) : entry? word.chars = none := by
  have hdrop : word.chars.dropWhile Text.isAsciiBlank = word.chars :=
    @dropWhile_spaces 0 _ Text.isAsciiBlank (by decide) fun c hc =>
      isAsciiBlank_of_isLetter (word.isLetter_head c hc)
  have hcut : cutKey? [] word.chars = none := by
    rw [← List.append_nil word.chars, cutKey?_append word.letters]
    rfl
  rw [ entry?, hdrop, hcut]
  rfl

end

/-! ## The lines of entries and items -/

section

variable {indent gap : Nat} {key word : Word} {value : Value} {content : List Char}

theorem trimStart_entryLine : Text.trimStart (entryLine indent key value) = entryText key value :=
  trimStart_spaces isBlank_head_entryText

theorem indentation_entryLine : indentation (entryLine indent key value) = indent :=
  indentation_spaces isBlank_head_entryText

theorem isSkipped_spaces_cons {count : Nat} {c : Char} {cs : List Char}
    (hblank : Text.isBlank c = false) (hsign : c ≠ '#') :
    isSkipped (spaces count ++ c :: cs) = false := by
  have hhead : ∀ d ∈ (c :: cs).head?, Text.isBlank d = false :=
    fun _ hd => Option.some.inj hd ▸ hblank
  rw [isSkipped, trimStart_spaces hhead]
  exact decide_eq_false hsign

theorem isSkipped_entryLine : isSkipped (entryLine indent key value) = false := by
  obtain ⟨first, rest, hchars, hfirst⟩ := key.exists_cons
  rw [entryLine, entryText, hchars]
  exact isSkipped_spaces_cons (isBlank_of_isLetter hfirst) (ne_of_isLetter hfirst (by decide))

/-- The line of an entry is not taken for an item, as its key begins with a letter. -/
theorem isItem_entryLine : isItem (Text.trimStart (entryLine indent key value)) = false := by
  obtain ⟨first, rest, hchars, hfirst⟩ := key.exists_cons
  have hdash : first ≠ '-' := ne_of_isLetter hfirst (by decide)
  rw [trimStart_entryLine, entryText, hchars]
  unfold isItem
  split
  next heq => exact absurd (List.cons.inj heq).1 hdash
  next heq => exact absurd (List.cons.inj heq).1 hdash
  next => rfl

theorem trimStart_itemLine :
    Text.trimStart (itemLine indent gap content) = '-' :: (spaces (gap + 1) ++ content) :=
  trimStart_spaces fun _ hc => Option.some.inj hc ▸ by decide

theorem indentation_itemLine : indentation (itemLine indent gap content) = indent :=
  indentation_spaces fun _ hc => Option.some.inj hc ▸ by decide

theorem isSkipped_itemLine : isSkipped (itemLine indent gap content) = false :=
  isSkipped_spaces_cons (by decide) (by decide)

theorem isItem_itemLine : isItem (Text.trimStart (itemLine indent gap content)) = true := by
  rw [trimStart_itemLine]
  rfl

theorem trimStart_drop_itemLine (hcontent : ∀ c ∈ content.head?, Text.isBlank c = false) :
    Text.trimStart ((Text.trimStart (itemLine indent gap content)).drop 1) = content := by
  rw [trimStart_itemLine, List.drop_succ_cons, List.drop_zero]
  exact trimStart_spaces hcontent

/-- The content of an item stands at its column. -/
theorem byteLength_itemLine :
    Text.byteLength (itemLine indent gap content) - Text.byteLength content = indent + gap + 2 := by
  rw [itemLine, Text.byteLength_append, Text.byteLength_cons, Text.byteLength_append,
    byteLength_spaces, byteLength_spaces]
  have hdash : Char.utf8Size '-' = 1 := rfl
  omega

/-! ## No line holds a comma -/

theorem not_mem_comma_word : ',' ∉ word.chars :=
  fun hmem => absurd (word.letters _ hmem) (by decide)

theorem not_mem_comma_spaces {count : Nat} : ',' ∉ spaces count :=
  fun hmem => absurd (eq_of_mem_spaces hmem) (by decide)

theorem not_mem_comma_entryText : ',' ∉ entryText key value := by
  have hvalue : ',' ∉ value.onLine := by
    cases value with
    | plain gap word => simp [Value.onLine, not_mem_comma_word, not_mem_comma_spaces]
    | _ => exact List.not_mem_nil
  simp [entryText, not_mem_comma_word, hvalue]

theorem not_mem_comma_entryLine : ',' ∉ entryLine indent key value := by
  simp [entryLine, not_mem_comma_spaces, not_mem_comma_entryText]

theorem not_mem_comma_itemLine (h : ',' ∉ content) : ',' ∉ itemLine indent gap content := by
  simp [itemLine, not_mem_comma_spaces, h]

end

section

variable {line : List Char}

mutual

theorem Value.not_mem_comma_of_linesBelow (value : Value) (indent : Nat)
    (h : line ∈ value.linesBelow indent) : ',' ∉ line := by
  cases value with
  | empty | plain gap word => cases h
  | mapping step key value rest =>
    rw [Value.linesBelow, List.mem_cons, List.mem_append] at h
    rcases h with rfl | h | h
    · exact not_mem_comma_entryLine
    · exact value.not_mem_comma_of_linesBelow _ h
    · exact rest.not_mem_comma_of_lines _ h
  | sequence offset first rest =>
    rw [Value.linesBelow, List.mem_append] at h
    rcases h with h | h
    · exact first.not_mem_comma_of_lines _ h
    · exact rest.not_mem_comma_of_lines _ h

/-- No line of an outline holds a comma, so none has a decimal. -/
theorem Entries.not_mem_comma_of_lines (entries : Entries) (indent : Nat)
    (h : line ∈ entries.lines indent) : ',' ∉ line := by
  cases entries with
  | nil => cases h
  | cons key value rest =>
    rw [Entries.lines, List.mem_cons, List.mem_append] at h
    rcases h with rfl | h | h
    · exact not_mem_comma_entryLine
    · exact value.not_mem_comma_of_linesBelow _ h
    · exact rest.not_mem_comma_of_lines _ h

theorem Item.not_mem_comma_of_lines (item : Item) (indent : Nat)
    (h : line ∈ item.lines indent) : ',' ∉ line := by
  cases item with
  | plain gap word =>
    rw [Item.lines, List.mem_singleton] at h
    exact h ▸ not_mem_comma_itemLine not_mem_comma_word
  | mapping gap key value rest =>
    rw [Item.lines, List.mem_cons, List.mem_append] at h
    rcases h with rfl | h | h
    · exact not_mem_comma_itemLine not_mem_comma_entryText
    · exact value.not_mem_comma_of_linesBelow _ h
    · exact rest.not_mem_comma_of_lines _ h

theorem Items.not_mem_comma_of_lines (items : Items) (indent : Nat)
    (h : line ∈ items.lines indent) : ',' ∉ line := by
  cases items with
  | nil => cases h
  | cons item rest =>
    rw [Items.lines, List.mem_append] at h
    rcases h with h | h
    · exact item.not_mem_comma_of_lines _ h
    · exact rest.not_mem_comma_of_lines _ h

end

end

end RamlDoc.Fixup.Outline
