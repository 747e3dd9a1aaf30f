import RamlDoc.DataType.Expression

/-!
# Reading type expressions and showing types

An expression is some pairs of brackets behind a core, and the core is read without them
(`exists_layers`, `layered_append_layers`). A type is shown the same way, except that a union is put
in parentheses when brackets follow it. So what is shown for a type is read as that type again
unless the text hides a union: one without a bar, or one whose last member ends with brackets of its
own (`ofString_text_eq_iff`).
-/

namespace RamlDoc.DataType

variable {core : List Char → DataType} {cs word : List Char} {type : DataType}
  {members : List DataType} {count : Nat}

/-! ## Layers of brackets -/

/-- Some pairs of brackets. -/
def layers : Nat → List Char
  | 0 => []
  | count + 1 => layers count ++ brackets

/-- A text is trimmed and has no brackets at its end. -/
structure IsCore (word : List Char) : Prop where
  trimmed : Text.trim word = word
  unbracketed : ¬brackets <:+ word

theorem element?_eq_none_iff : element? cs = none ↔ ¬brackets <:+ Text.trim cs :=
  Text.beforeEnd?_eq_none

theorem isCore_trim (h : element? cs = none) : IsCore (Text.trim cs) :=
  ⟨Text.trim_trim cs, element?_eq_none_iff.1 h⟩

theorem layered_of_none (h : element? cs = none) : layered core cs = core (Text.trim cs) := by
  rw [layered]
  split
  next element helement =>
    rw [h] at helement
    cases helement
  next => rfl

theorem layered_of_some {element : List Char} (h : element? cs = some element) :
    layered core cs = .array (layered core element) := by
  rw [layered]
  split
  next element' helement =>
    rw [h] at helement
    rw [Option.some.inj helement]
  next hnone =>
    rw [h] at hnone
    cases hnone

/-- Blanks around an expression do not matter. -/
theorem layered_congr {ds : List Char} (h : Text.trim cs = Text.trim ds) :
    layered core cs = layered core ds := by
  have helement : element? cs = element? ds := by rw [element?, element?, h]
  cases hds : element? ds with
  | none => rw [layered_of_none hds, layered_of_none (helement.trans hds), h]
  | some element => rw [layered_of_some hds, layered_of_some (helement.trans hds)]

theorem layered_of_isCore (h : IsCore word) : layered core word = core word := by
  have hnone : element? word = none := by
    rw [element?_eq_none_iff, h.trimmed]
    exact h.unbracketed
  rw [layered_of_none hnone, h.trimmed]

/-- A text that neither starts nor ends with a blank, nor ends with a bracket, is a core. -/
theorem isCore_of_ends {first last : Char} (hfirst : word.head? = some first)
    (hlast : word.getLast? = some last) (hstart : Text.isBlank first = false)
    (hend : Text.isBlank last = false) (hne : last ≠ ']') : IsCore word := by
  constructor
  · refine Text.trim_eq_self_iff.2 ⟨fun c hc => ?_, fun c hc => ?_⟩
    · obtain rfl := Option.some.inj (hfirst.symm.trans hc)
      exact hstart
    · obtain rfl := Option.some.inj (hlast.symm.trans hc)
      exact hend
  · rintro ⟨front, rfl⟩
    rw [brackets, List.getLast?_append] at hlast
    exact hne (Option.some.inj hlast).symm

theorem trim_append_brackets (front : List Char) :
    Text.trim (front ++ brackets) = Text.trimStart front ++ brackets := by
  have hstart : Text.trimStart (front ++ brackets) = Text.trimStart front ++ brackets := by
    rw [Text.trimStart, List.dropWhile_append, Text.trimStart]
    cases front.dropWhile Text.isBlank <;> rfl
  rw [Text.trim, hstart, Text.trimEnd_eq_self_iff]
  intro c hc
  rw [brackets, List.getLast?_append] at hc
  obtain rfl : ']' = c := Option.some.inj hc
  decide

/-- Brackets at the end make an array of what stands before them. -/
theorem layered_append_brackets (core : List Char → DataType) (cs : List Char) :
    layered core (cs ++ brackets) = .array (layered core cs) := by
  have hread : element? (cs ++ brackets) = some (Text.trimStart cs) := by
    rw [element?, trim_append_brackets]
    exact Text.beforeEnd?_eq_some.2 rfl
  rw [layered_of_some hread]
  refine congrArg array (layered_congr ?_)
  rw [Text.trim, Text.trimStart_trimStart, Text.trim]

theorem layered_append_layers (core : List Char → DataType) (cs : List Char) (count : Nat) :
    layered core (cs ++ layers count) = arrays count (layered core cs) := by
  induction count with
  | zero => rw [layers, List.append_nil, arrays]
  | succ count ih => rw [layers, ← List.append_assoc, layered_append_brackets, ih, arrays]

/-- Every expression is read as some layers of arrays over what the core in it is read as. -/
theorem exists_layers (core : List Char → DataType) (cs : List Char) :
    ∃ count word, layered core cs = arrays count (core word) ∧ IsCore word ∧
      (∀ c ∈ word, c ∈ cs) ∧ (count = 0 → word = Text.trim cs) := by
  fun_induction layered core cs with
  | case1 cs element helement ih =>
    obtain ⟨count, word, heq, hcore, hmem, -⟩ := ih
    refine ⟨count + 1, word, by rw [heq, arrays], hcore, fun c hc => Text.mem_of_mem_trim ?_, nofun⟩
    rw [Text.beforeEnd?_eq_some.1 helement]
    exact List.mem_append_left brackets (hmem c hc)
  | case2 cs hnone =>
    exact ⟨0, Text.trim cs, rfl, isCore_trim hnone, fun c hc => Text.mem_of_mem_trim hc,
      fun _ => rfl⟩

/-! ## Shown arrays -/

theorem isUnion_arrays (h : type.isUnion = false) (count : Nat) :
    (arrays count type).isUnion = false := by
  cases count with
  | zero => exact h
  | succ count => rfl

/-- Arrays over anything but a union are shown with brackets behind it. -/
theorem chars_arrays (h : type.isUnion = false) (count : Nat) :
    (arrays count type).chars = type.chars ++ layers count := by
  induction count with
  | zero => simp [arrays, layers]
  | succ count ih =>
    rw [arrays, chars, isUnion_arrays h, ih, layers, ← List.append_assoc]
    rfl

/-- Arrays over a union are shown with the union in parentheses. -/
theorem chars_arrays_union (members : List DataType) (count : Nat) :
    (arrays (count + 1) (.union members)).chars =
      '(' :: charsOfMembers members ++ [')'] ++ layers (count + 1) := by
  induction count with
  | zero => simp [arrays, chars, isUnion, layers, brackets]
  | succ count ih =>
    rw [arrays, chars, layers, ← List.append_assoc, ← ih]
    rfl

/-- The layers of arrays over what is no array itself can be counted. -/
theorem arrays_inj {count' : Nat} {type' : DataType} (h : ∀ element, type ≠ .array element)
    (h' : ∀ element, type' ≠ .array element) (heq : arrays count type = arrays count' type') :
    count = count' ∧ type = type' := by
  induction count generalizing count' with
  | zero =>
    cases count' with
    | zero => exact ⟨rfl, heq⟩
    | succ count' => exact absurd heq (h _)
  | succ count ih =>
    cases count' with
    | zero => exact absurd heq.symm (h' _)
    | succ count' => exact (ih (array.inj heq)).imp_left (congrArg (· + 1))

/-! ## Words -/

/-- A character that counts in the members of a union. -/
def isPlain (c : Char) : Bool := !Text.isBlank c && c ≠ '(' && c ≠ ')' && c ≠ '|'

theorem ofWord_name (kind : ScalarType) : ofWord kind.name.toList = .scalar kind := by
  cases kind <;> decide

theorem isPlain_of_mem_name (kind : ScalarType) : ∀ c ∈ kind.name.toList, isPlain c = true :=
  List.all_eq_true.1 (by cases kind <;> decide)

theorem isCore_name (kind : ScalarType) : IsCore kind.name.toList := by
  cases kind <;> exact ⟨by decide, by decide⟩

/-- A word is shown as it is unless it is another spelling of a scalar type. -/
theorem chars_ofWord (word : List Char) :
    (ofWord word).chars = word ∨ ∃ kind, ofWord word = .scalar kind := by
  rw [ofWord]
  split
  next h => exact .inl h.symm
  next =>
    split
    next h => exact .inl h.symm
    next =>
      split
      next kind hkind => exact .inr ⟨kind, rfl⟩
      next => exact .inl (String.toList_ofList)

/-- What is shown for a word is that word again. -/
theorem ofWord_chars (word : List Char) : ofWord (ofWord word).chars = ofWord word := by
  rcases chars_ofWord word with heq | ⟨kind, hkind⟩
  · rw [heq]
  · rw [hkind]
    exact ofWord_name kind

theorem isUnion_ofWord (word : List Char) : (ofWord word).isUnion = false := by
  rw [ofWord]
  repeat' split
  all_goals rfl

theorem ofWord_ne_array (word : List Char) (element : DataType) : ofWord word ≠ .array element := by
  rw [ofWord]
  repeat' split
  all_goals nofun

/-- Arrays over a word are no arrays over a union. -/
theorem arrays_ofWord_ne_union {count' : Nat} :
    arrays count (ofWord word) ≠ arrays count' (.union members) := by
  intro heq
  have hne : ∀ element, DataType.union members ≠ .array element := nofun
  have hword := isUnion_ofWord word
  rw [(arrays_inj (ofWord_ne_array word) hne heq).2] at hword
  cases hword

theorem IsCore.chars_ofWord (h : IsCore word) : IsCore (ofWord word).chars := by
  rcases DataType.chars_ofWord word with heq | ⟨kind, hkind⟩
  · rwa [heq]
  · rw [hkind]
    exact isCore_name kind

theorem isPlain_chars_ofWord (h : ∀ c ∈ word, isPlain c = true) :
    ∀ c ∈ (ofWord word).chars, isPlain c = true := by
  rcases chars_ofWord word with heq | ⟨kind, hkind⟩
  · rwa [heq]
  · rw [hkind]
    exact isPlain_of_mem_name kind

theorem chars_ofWord_ne_nil (h : word ≠ []) : (ofWord word).chars ≠ [] := by
  rcases chars_ofWord word with heq | ⟨kind, hkind⟩
  · rwa [heq]
  · rw [hkind]
    cases kind <;> decide

/-! ## Members of unions -/

/-- What a member of a union can be: some layers of arrays over a word of plain characters, which is
empty only below brackets. -/
def IsMember (type : DataType) : Prop :=
  ∃ count word, type = arrays count (ofWord word) ∧ IsCore word ∧ (∀ c ∈ word, isPlain c = true) ∧
    (count = 0 → word ≠ [])

theorem isBlank_of_isPlain {c : Char} (h : isPlain c = true) : Text.isBlank c = false := by
  simp only [isPlain, Bool.and_eq_true, Bool.not_eq_true'] at h
  exact h.1.1.1

theorem not_mem_of_isPlain {c : Char} (h : ∀ c ∈ word, isPlain c = true) (hc : isPlain c = false) :
    c ∉ word := fun hmem => by
  rw [h c hmem] at hc
  cases hc

theorem trim_of_isPlain (h : ∀ c ∈ cs, isPlain c = true) : Text.trim cs = cs :=
  Text.trim_eq_self_iff.2 ⟨fun c hc => isBlank_of_isPlain (h c (List.mem_of_mem_head? hc)),
    fun c hc => isBlank_of_isPlain (h c (List.mem_of_getLast? hc))⟩

theorem isPlain_of_mem_strip {c : Char} (h : c ∈ strip cs) (hbar : c ≠ '|') : isPlain c = true := by
  rw [strip, List.mem_filter] at h
  simpa [isPlain, hbar] using h.2

theorem isPlain_of_mem_memberTexts {text : List Char} (h : text ∈ memberTexts cs) :
    ∀ c ∈ text, isPlain c = true := by
  intro c hc
  obtain ⟨hmem, -⟩ := List.mem_filter.1 h
  refine isPlain_of_mem_strip (Text.mem_of_mem_splitOn hmem hc) ?_
  rintro rfl
  exact Text.not_mem_of_mem_splitOn hmem hc

theorem isMember_of_mem_memberTexts {text : List Char} (h : text ∈ memberTexts cs) :
    IsMember (layered ofWord text) := by
  have hplain := isPlain_of_mem_memberTexts h
  obtain ⟨count, word, heq, hcore, hmem, hzero⟩ := exists_layers ofWord text
  refine ⟨count, word, heq, hcore, fun c hc => hplain c (hmem c hc), fun hcount => ?_⟩
  rw [hzero hcount, trim_of_isPlain hplain]
  rintro rfl
  simp [memberTexts] at h

theorem isPlain_of_mem_layers (count : Nat) : ∀ c ∈ layers count, isPlain c = true := by
  induction count with
  | zero => nofun
  | succ count ih =>
    intro c hc
    have hbrackets : brackets.all isPlain = true := by decide
    rcases List.mem_append.1 hc with hc | hc
    · exact ih c hc
    · exact List.all_eq_true.1 hbrackets c hc

namespace IsMember

theorem plain (h : IsMember type) : ∀ c ∈ type.chars, isPlain c = true := by
  obtain ⟨count, word, rfl, -, hplain, -⟩ := h
  rw [chars_arrays (isUnion_ofWord word)]
  intro c hc
  rcases List.mem_append.1 hc with hc | hc
  · exact isPlain_chars_ofWord hplain c hc
  · exact isPlain_of_mem_layers count c hc

theorem chars_ne_nil (h : IsMember type) : type.chars ≠ [] := by
  obtain ⟨count, word, rfl, -, -, hne⟩ := h
  rw [chars_arrays (isUnion_ofWord word)]
  cases count with
  | zero => simpa [layers] using chars_ofWord_ne_nil (hne rfl)
  | succ count => simp [layers, brackets]

/-- What is shown for a member is read as that member. -/
theorem layered_chars (h : IsMember type) : layered ofWord type.chars = type := by
  obtain ⟨count, word, rfl, hcore, -, -⟩ := h
  rw [chars_arrays (isUnion_ofWord word), layered_append_layers,
    layered_of_isCore hcore.chars_ofWord, ofWord_chars]

/-- A member is shown with brackets at its end exactly if it is an array. -/
theorem brackets_suffix_iff (h : IsMember type) :
    brackets <:+ type.chars ↔ ∃ element, type = .array element := by
  constructor
  · rintro ⟨front, hfront⟩
    have hread := h.layered_chars
    rw [← hfront, layered_append_brackets] at hread
    exact ⟨_, hread.symm⟩
  · rintro ⟨element, rfl⟩
    exact List.suffix_append _ _

end IsMember

/-! ## Shown unions -/

theorem charsOfMembers_eq (members : List DataType) :
    charsOfMembers members = Text.joinWith " | ".toList (members.map chars) := by
  induction members with
  | nil => rfl
  | cons member members ih =>
    cases members with
    | nil => rfl
    | cons next members =>
      rw [charsOfMembers, ih]
      · rfl
      · nofun

theorem strip_append (cs ds : List Char) : strip (cs ++ ds) = strip cs ++ strip ds :=
  List.filter_append ..

theorem strip_of_isPlain (h : ∀ c ∈ cs, isPlain c = true) : strip cs = cs := by
  rw [strip, List.filter_eq_self]
  intro c hc
  have := h c hc
  simp only [isPlain, Bool.and_eq_true] at this
  simp [this.1]

theorem strip_parentheses (cs : List Char) : strip ('(' :: cs ++ [')']) = strip cs := by
  rw [strip_append]
  simp [strip]

theorem strip_charsOfMembers (h : ∀ member ∈ members, IsMember member) :
    strip (charsOfMembers members) = Text.joinWith ['|'] (members.map chars) := by
  rw [charsOfMembers_eq]
  induction members with
  | nil => rfl
  | cons member members ih =>
    obtain ⟨hmember, hmembers⟩ := List.forall_mem_cons.1 h
    cases members with
    | nil => exact strip_of_isPlain hmember.plain
    | cons next members =>
      have hbar : strip " | ".toList = ['|'] := by decide
      rw [List.map_cons, List.map_cons, Text.joinWith_cons_cons, Text.joinWith_cons_cons,
        strip_append, strip_append, hbar, strip_of_isPlain hmember.plain, ← List.map_cons,
        ih hmembers]

/-- What is shown for the members of a union are the texts of its members. -/
theorem memberTexts_charsOfMembers (h : ∀ member ∈ members, IsMember member) :
    memberTexts (charsOfMembers members) = members.map chars := by
  rw [memberTexts, strip_charsOfMembers h]
  cases members with
  | nil => decide
  | cons member members =>
    rw [Text.splitOn_joinWith, List.filter_eq_self]
    · intro text htext
      obtain ⟨member, hmember, rfl⟩ := List.mem_map.1 htext
      simpa using (h member hmember).chars_ne_nil
    · exact List.cons_ne_nil _ _
    · intro text htext
      obtain ⟨member, hmember, rfl⟩ := List.mem_map.1 htext
      exact not_mem_of_isPlain (h member hmember).plain (by decide)

/-- A text with a bar that holds the members' texts is read as the union of the members. -/
theorem ofCore_of_memberTexts (h : ∀ member ∈ members, IsMember member) (hbar : '|' ∈ cs)
    (htexts : memberTexts cs = members.map chars) : ofCore cs = .union members := by
  rw [ofCore, if_pos hbar, htexts, List.map_map]
  refine congrArg union ((List.map_congr_left fun member hmember => ?_).trans (List.map_id members))
  exact (h member hmember).layered_chars

/-- There is a bar between any two members. -/
theorem bar_mem_charsOfMembers_iff (h : ∀ member ∈ members, IsMember member) :
    '|' ∈ charsOfMembers members ↔ 2 ≤ members.length := by
  have hfree : ∀ member ∈ members, '|' ∉ member.chars := fun member hmember =>
    not_mem_of_isPlain (h member hmember).plain (by decide)
  match members with
  | [] => simp [charsOfMembers]
  | [member] => simpa [charsOfMembers] using hfree member
  | member :: next :: members => simp [charsOfMembers]

/-- A union starts with what is shown for its first member. -/
theorem chars_prefix_charsOfMembers (first : DataType) (members : List DataType) :
    first.chars <+: charsOfMembers (first :: members) := by
  rw [charsOfMembers_eq]
  cases members with
  | nil => exact List.prefix_rfl
  | cons next members =>
    rw [List.map_cons, List.map_cons, Text.joinWith_cons_cons, List.append_assoc]
    exact List.prefix_append _ _

/-- A union of two members or more ends with what is shown for its last member, behind a blank. -/
theorem suffix_charsOfMembers {last : DataType} (hne : members ≠ []) :
    ' ' :: last.chars <:+ charsOfMembers (members ++ [last]) := by
  rw [charsOfMembers_eq, List.map_append, List.map_singleton,
    Text.joinWith_append_singleton _ _ (by simpa using hne)]
  exact ⟨Text.joinWith " | ".toList (members.map chars) ++ [' ', '|'], by simp⟩

/-- A union whose last member is an array is shown with brackets at its end. -/
theorem brackets_suffix_charsOfMembers (before : List DataType) (element : DataType) :
    brackets <:+ charsOfMembers (before ++ [.array element]) := by
  have harray : brackets <:+ (array element).chars := List.suffix_append _ _
  cases before with
  | nil => exact harray
  | cons first before =>
    exact (harray.trans (List.suffix_cons _ _)).trans (suffix_charsOfMembers (List.cons_ne_nil _ _))

/-- A union of two members or more, the last of which is no array, is shown as a core. -/
theorem isCore_charsOfMembers (h : ∀ member ∈ members, IsMember member)
    (hlength : 2 ≤ members.length)
    (hlast : ∀ element, members.getLast? ≠ some (.array element)) :
    IsCore (charsOfMembers members) := by
  obtain ⟨before, last, rfl⟩ : ∃ before last, members = before ++ [last] :=
    ⟨_, _, (List.dropLast_concat_getLast (by rintro rfl; simp at hlength)).symm⟩
  have hbefore : before ≠ [] := by
    rintro rfl
    simp at hlength
  have hmember := h last (by simp)
  have hsuffix := @suffix_charsOfMembers before last hbefore
  constructor
  · refine Text.trim_eq_self_iff.2 ⟨fun c hc => ?_, fun c hc => ?_⟩
    · obtain ⟨first, before, rfl⟩ := List.exists_cons_of_ne_nil hbefore
      have hfirst := h first (by simp)
      obtain ⟨d, tail, hchars⟩ := List.exists_cons_of_ne_nil hfirst.chars_ne_nil
      obtain ⟨rest, hrest⟩ := chars_prefix_charsOfMembers first (before ++ [last])
      rw [List.cons_append, ← hrest, hchars] at hc
      obtain rfl : d = c := Option.some.inj hc
      exact isBlank_of_isPlain (hfirst.plain d (hchars ▸ List.mem_cons_self))
    · obtain ⟨rest, hrest⟩ := hsuffix
      rw [← hrest, List.getLast?_append, List.getLast?_cons_of_ne_nil hmember.chars_ne_nil,
        List.getLast?_eq_some_getLast hmember.chars_ne_nil] at hc
      obtain rfl := Option.some.inj hc
      exact isBlank_of_isPlain (hmember.plain _ (List.getLast_mem _))
  · intro hbrackets
    -- The brackets are not longer than the last member and the blank before it, so they end it.
    have hlength : brackets.length ≤ (' ' :: last.chars).length := by
      have := List.length_pos_iff.2 hmember.chars_ne_nil
      simp only [brackets, List.length_cons, List.length_nil]
      omega
    rcases List.suffix_cons_iff.1 (List.suffix_of_suffix_length_le hbrackets hsuffix hlength) with
      heq | hends
    · simp [brackets] at heq
    · obtain ⟨element, rfl⟩ := hmember.brackets_suffix_iff.1 hends
      exact hlast element (by simp)

theorem isCore_parenthesised (cs : List Char) : IsCore ('(' :: cs ++ [')']) :=
  isCore_of_ends rfl List.getLast?_concat (by decide) (by decide) (by decide)

/-! ## What is shown is read again -/

/-- Every expression is read as arrays over a word without bars or over a union of members. -/
theorem ofChars_cases (cs : List Char) :
    (∃ count word, ofChars cs = arrays count (ofWord word) ∧ IsCore word ∧ '|' ∉ word) ∨
      ∃ count members, ofChars cs = arrays count (.union members) ∧
        (∀ member ∈ members, IsMember member) ∧ '|' ∈ cs := by
  obtain ⟨count, word, heq, hcore, hmem, -⟩ := exists_layers ofCore cs
  rw [ofChars, heq, ofCore]
  split
  next hbar =>
    refine .inr ⟨count, _, rfl, fun member hmember => ?_, hmem _ hbar⟩
    obtain ⟨text, htext, rfl⟩ := List.mem_map.1 hmember
    exact isMember_of_mem_memberTexts htext
  next hbar => exact .inl ⟨count, word, rfl, hcore, hbar⟩

theorem ofChars_chars_word (h : IsCore word) (hbar : '|' ∉ word) (count : Nat) :
    ofChars (arrays count (ofWord word)).chars = arrays count (ofWord word) := by
  have hbar' : '|' ∉ (ofWord word).chars := by
    rcases chars_ofWord word with heq | ⟨kind, hkind⟩
    · rwa [heq]
    · rw [hkind]
      exact not_mem_of_isPlain (isPlain_of_mem_name kind) (by decide)
  rw [chars_arrays (isUnion_ofWord word), ofChars, layered_append_layers,
    layered_of_isCore h.chars_ofWord, ofCore, if_neg hbar', ofWord_chars]

theorem ofChars_ne_union_of_bar (h : '|' ∉ cs) : ofChars cs ≠ arrays count (.union members) := by
  intro hunion
  rcases ofChars_cases cs with ⟨count', word, heq, -, -⟩ | ⟨count', members', -, -, hbar⟩
  · exact arrays_ofWord_ne_union (heq.symm.trans hunion)
  · exact h hbar

/-- A union is read from what is shown for it if its members can be told apart and, where it is not
in parentheses, the brackets of its last member are not taken for its own. -/
theorem ofChars_chars_union_iff (h : ∀ member ∈ members, IsMember member) :
    ofChars (arrays count (.union members)).chars = arrays count (.union members) ↔
      2 ≤ members.length ∧
        (count = 0 → ∀ element, members.getLast? ≠ some (.array element)) := by
  have htexts := memberTexts_charsOfMembers h
  have hbar := bar_mem_charsOfMembers_iff h
  constructor
  · intro heq
    constructor
    · by_cases hmem : '|' ∈ charsOfMembers members
      · exact hbar.1 hmem
      · -- Without a bar what is shown is not read as a union at all.
        refine absurd heq (ofChars_ne_union_of_bar ?_)
        cases count with
        | zero => exact hmem
        | succ count =>
          have hlayers : '|' ∉ layers (count + 1) :=
            not_mem_of_isPlain (isPlain_of_mem_layers _) (by decide)
          rw [chars_arrays_union]
          simp [hmem, hlayers]
    · rintro rfl element hlast
      obtain ⟨before, rfl⟩ := List.getLast?_eq_some_iff.1 hlast
      obtain ⟨front, hfront⟩ := brackets_suffix_charsOfMembers before element
      rw [arrays, chars, ← hfront, ofChars, layered_append_brackets] at heq
      cases heq
  · rintro ⟨hlength, hlast⟩
    cases count with
    | zero =>
      rw [arrays, chars, ofChars, layered_of_isCore (isCore_charsOfMembers h hlength (hlast rfl))]
      exact ofCore_of_memberTexts h (hbar.2 hlength) htexts
    | succ count =>
      have hinside : memberTexts ('(' :: charsOfMembers members ++ [')']) = members.map chars := by
        rw [← htexts, memberTexts, memberTexts, strip_parentheses]
      have hmem : '|' ∈ '(' :: charsOfMembers members ++ [')'] := by simp [hbar.2 hlength]
      rw [chars_arrays_union, ofChars, layered_append_layers,
        layered_of_isCore (isCore_parenthesised _), ofCore_of_memberTexts h hmem hinside]

/-- The text of a type hides that it is a union below some arrays: one of fewer than two members, or
one that is no array itself but whose last member is. -/
def HidesUnion (type : DataType) : Prop :=
  ∃ count members, type = arrays count (.union members) ∧
    (members.length < 2 ∨ count = 0 ∧ ∃ element, members.getLast? = some (.array element))

theorem hidesUnion_union_iff :
    HidesUnion (arrays count (.union members)) ↔
      members.length < 2 ∨ count = 0 ∧ ∃ element, members.getLast? = some (.array element) := by
  constructor
  · rintro ⟨count', members', heq, h⟩
    have hne : ∀ members element, DataType.union members ≠ .array element := nofun
    obtain ⟨rfl, hmembers⟩ := arrays_inj (hne members) (hne members') heq
    rwa [union.inj hmembers]
  · exact fun h => ⟨count, members, rfl, h⟩

/-- What is shown for the type that an expression declares is read as that type exactly unless it
hides a union. -/
theorem ofString_text_eq_iff (s : String) :
    ofString (ofString s).text = ofString s ↔ ¬HidesUnion (ofString s) := by
  rw [ofString, text, ofString, String.toList_ofList]
  rcases ofChars_cases s.toList with ⟨count, word, heq, hcore, hbar⟩ | ⟨count, members, heq, h, -⟩
  · rw [heq]
    refine iff_of_true (ofChars_chars_word hcore hbar count) ?_
    rintro ⟨count', members, hunion, -⟩
    exact arrays_ofWord_ne_union hunion
  · rw [heq, ofChars_chars_union_iff h, hidesUnion_union_iff, not_or, Nat.not_lt]
    simp only [not_and, not_exists, ne_eq]

end RamlDoc.DataType
