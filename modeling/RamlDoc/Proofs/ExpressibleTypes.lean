import RamlDoc.Proofs.TypeExpressions

/-!
# The types that expressions declare

What an expression can declare is some layers of arrays over a simple type or over a union, whose
members are such layers over simple types again (`IsExpressible`). Reading gives no other type, and
every one of these has an expression: a simple type is read from its own text, a union from the
texts of its members with a bar on either side of each (`barred`). The bars keep a union of fewer
than two members, and one whose last member ends with brackets, which the text of the union hides.

The members of a union are read as expressions themselves (`ofCore_of_bar`), but by then there is no
bar left in them. So unions never nest, with whatever parentheses an expression is written
(`ofString_image`).
-/

namespace RamlDoc.DataType

variable {type core : DataType} {members : List DataType} {word : List Char} {name : String}
  {named : String → Prop} {texts : List (List Char)} {count : Nat}

/-! ## Names -/

/-- The words that are read as a type of their own, in every spelling. -/
def builtinWords : List String :=
  ["any", "object"] ++ ScalarType.all.map ScalarType.name ++ ScalarType.otherNames.map Prod.fst

/-- What a name in an expression can be. -/
structure IsName (name : String) : Prop where
  isCore : IsCore name.toList
  barless : '|' ∉ name.toList
  notBuiltin : name ∉ builtinWords

/-- What a name in a member of a union can be. -/
structure IsMemberName (name : String) : Prop extends IsName name where
  unspaced : ∀ c ∈ name.toList, Text.isBlank c = false
  unparenthesised : '(' ∉ name.toList ∧ ')' ∉ name.toList

theorem ofName?_eq_none_iff :
    ScalarType.ofName? name = none ↔
      name ∉ ScalarType.all.map ScalarType.name ∧ name ∉ ScalarType.otherNames.map Prod.fst := by
  have hfind : (ScalarType.all.find? fun kind => kind.name = name) = none ↔
      name ∉ ScalarType.all.map ScalarType.name := by simp
  have hlookup : ScalarType.otherNames.lookup name = none ↔
      name ∉ ScalarType.otherNames.map Prod.fst := by
    simp only [List.lookup_eq_none_iff, List.mem_map, not_exists, not_and, bne_iff_ne]
    exact forall₂_congr fun spelling _ => ne_comm
  rw [ScalarType.ofName?]
  split
  next kind hkind =>
    refine iff_of_false nofun fun h => ?_
    rw [hfind.2 h.1] at hkind
    cases hkind
  next hnone => rw [hlookup, and_iff_right (hfind.1 hnone)]

theorem not_mem_builtinWords_iff :
    name ∉ builtinWords ↔ name ≠ "object" ∧ name ≠ "any" ∧ ScalarType.ofName? name = none := by
  rw [ofName?_eq_none_iff, builtinWords]
  simp only [List.mem_append, List.mem_cons, List.not_mem_nil, or_false, not_or, ne_eq]
  grind

/-- A word is read as a name exactly if it is no word for a type of its own. -/
theorem ofWord_toList_iff : ofWord name.toList = .custom name ↔ name ∉ builtinWords := by
  rw [not_mem_builtinWords_iff, ofWord]
  simp only [String.toList_inj, String.ofList_toList]
  by_cases hobject : name = "object"
  · simp [hobject]
  by_cases hany : name = "any"
  · simp [hany]
  cases ScalarType.ofName? name <;> simp [hobject, hany]

theorem eq_toList_of_ofWord (h : ofWord word = .custom name) : word = name.toList := by
  rcases chars_ofWord word with hchars | ⟨kind, hkind⟩
  · rw [← hchars, h, chars]
  · rw [h] at hkind
    cases hkind

/-! ## Simple types -/

/-- A type that has no other type in it, with a name of a given sort if it has one. -/
def IsSimple (named : String → Prop) : DataType → Prop
  | .any | .object | .scalar _ => True
  | .custom name => named name
  | .array _ | .union _ => False

theorem isSimple_ofWord (h : ∀ name, ofWord word = .custom name → named name) :
    (ofWord word).IsSimple named := by
  cases hword : ofWord word with
  | any | object | scalar kind => trivial
  | custom name => exact h name hword
  | array element => exact absurd hword (ofWord_ne_array word element)
  | union members =>
    have hunion := isUnion_ofWord word
    rw [hword] at hunion
    cases hunion

/-- A word without bars is read as a simple type. -/
theorem isSimple_ofWord_of_isCore (h : IsCore word) (hbar : '|' ∉ word) :
    (ofWord word).IsSimple IsName :=
  isSimple_ofWord fun name hname => by
    obtain rfl := eq_toList_of_ofWord hname
    exact ⟨h, hbar, ofWord_toList_iff.1 hname⟩

theorem isSimple_ofWord_of_isPlain (h : IsCore word) (hplain : ∀ c ∈ word, isPlain c = true) :
    (ofWord word).IsSimple IsMemberName :=
  isSimple_ofWord fun name hname => by
    obtain rfl := eq_toList_of_ofWord hname
    exact
      { isCore := h
        barless := not_mem_of_isPlain hplain (by decide)
        notBuiltin := ofWord_toList_iff.1 hname
        unspaced := fun c hc => isBlank_of_isPlain (hplain c hc)
        unparenthesised :=
          ⟨not_mem_of_isPlain hplain (by decide), not_mem_of_isPlain hplain (by decide)⟩ }

theorem IsMemberName.isPlain (h : IsMemberName name) : ∀ c ∈ name.toList, isPlain c = true := by
  intro c hc
  have hopen : c ≠ '(' := fun heq => h.unparenthesised.1 (heq ▸ hc)
  have hclose : c ≠ ')' := fun heq => h.unparenthesised.2 (heq ▸ hc)
  have hbar : c ≠ '|' := fun heq => h.barless (heq ▸ hc)
  simp [DataType.isPlain, h.unspaced c hc, hopen, hclose, hbar]

theorem isPlain_of_mem_builtinWords (word : String) (h : word ∈ builtinWords) :
    ∀ c ∈ word.toList, isPlain c = true := by
  have hall : builtinWords.all (fun word => word.toList.all isPlain) = true := by decide
  exact List.all_eq_true.1 (List.all_eq_true.1 hall word h)

theorem isCore_of_mem_builtinWords (word : String) (h : word ∈ builtinWords) :
    IsCore word.toList where
  trimmed := trim_of_isPlain (isPlain_of_mem_builtinWords word h)
  unbracketed := by
    have hopen : '[' ∉ word.toList := by
      revert word
      decide
    exact fun hbrackets => hopen (hbrackets.subset List.mem_cons_self)

namespace IsSimple

theorem mono {named' : String → Prop} (h : type.IsSimple named)
    (hnamed : ∀ name, named name → named' name) : type.IsSimple named' := by
  cases type with
  | custom name => exact hnamed name h
  | _ => exact h

/-- What holds of the words of built-in types and of the names holds of what is shown. -/
theorem chars_of {P : List Char → Prop} (h : type.IsSimple named)
    (hbuiltin : ∀ word ∈ builtinWords, P word.toList)
    (hname : ∀ name, named name → P name.toList) : P type.chars := by
  cases type with
  | any | object => exact hbuiltin _ (by decide)
  | scalar kind => exact hbuiltin kind.name (by cases kind <;> decide)
  | custom name => exact hname name h
  | array element | union members => exact h.elim

/-- A simple type is read from its own text. -/
theorem ofWord_chars (h : type.IsSimple IsName) : ofWord type.chars = type := by
  cases type with
  | any | object => rfl
  | scalar kind => exact ofWord_name kind
  | custom name => exact ofWord_toList_iff.2 h.notBuiltin
  | array element | union members => exact h.elim

theorem isCore_chars (h : type.IsSimple IsName) : IsCore type.chars :=
  h.chars_of isCore_of_mem_builtinWords fun _ => IsName.isCore

theorem bar_not_mem_chars (h : type.IsSimple IsName) : '|' ∉ type.chars :=
  h.chars_of (P := fun cs => '|' ∉ cs)
    (fun word hword => not_mem_of_isPlain (isPlain_of_mem_builtinWords word hword) (by decide))
    fun _ => IsName.barless

theorem isPlain_chars (h : type.IsSimple IsMemberName) : ∀ c ∈ type.chars, isPlain c = true :=
  h.chars_of (P := fun cs => ∀ c ∈ cs, isPlain c = true) isPlain_of_mem_builtinWords
    fun _ => IsMemberName.isPlain

theorem chars_eq_nil_iff (h : type.IsSimple named) : type.chars = [] ↔ type = .custom "" := by
  cases type with
  | any | object => exact ⟨nofun, nofun⟩
  | scalar kind => cases kind <;> exact ⟨nofun, nofun⟩
  | custom name => simp [chars]
  | array element | union members => exact h.elim

end IsSimple

/-! ## Members of unions -/

/-- How an expression is read depends only on how words of its characters are. -/
theorem layered_congr_core {read read' : List Char → DataType} {cs : List Char}
    (h : ∀ word, (∀ c ∈ word, c ∈ cs) → read word = read' word) :
    layered read cs = layered read' cs := by
  fun_induction layered read cs with
  | case1 cs element helement ih =>
    rw [layered_of_some helement, ih fun word hword => h word fun c hc => ?_]
    apply Text.mem_of_mem_trim
    rw [Text.beforeEnd?_eq_some.1 helement]
    exact List.mem_append_left brackets (hword c hc)
  | case2 cs hnone => rw [layered_of_none hnone, h _ fun c => Text.mem_of_mem_trim]

/-- The members of a union are read as expressions themselves. -/
theorem ofCore_of_bar {cs : List Char} (h : '|' ∈ cs) :
    ofCore cs = .union ((memberTexts cs).map ofChars) := by
  rw [ofCore, if_pos h]
  refine congrArg union (List.map_congr_left fun text htext => ?_)
  have hbar : '|' ∉ text := not_mem_of_isPlain (isPlain_of_mem_memberTexts htext) (by decide)
  exact layered_congr_core fun word hword => by rw [ofCore, if_neg (mt (hword '|') hbar)]

/-- A type that can be a member of a union in an expression. -/
def IsUnionMember (type : DataType) : Prop :=
  ∃ count core, type = arrays count core ∧ core.IsSimple IsMemberName ∧
    (count = 0 → core ≠ .custom "")

/-- The members that are read are exactly the types that can be members. -/
theorem isMember_iff : IsMember type ↔ IsUnionMember type := by
  constructor
  · rintro ⟨count, word, rfl, hcore, hplain, hne⟩
    refine ⟨count, ofWord word, rfl, isSimple_ofWord_of_isPlain hcore hplain, fun hcount heq => ?_⟩
    exact hne hcount (eq_toList_of_ofWord heq)
  · rintro ⟨count, core, rfl, hcore, hne⟩
    have hname : core.IsSimple IsName := hcore.mono fun _ => IsMemberName.toIsName
    refine ⟨count, core.chars, ?_, hname.isCore_chars, hcore.isPlain_chars,
      fun hcount => mt hname.chars_eq_nil_iff.1 (hne hcount)⟩
    rw [hname.ofWord_chars]

/-! ## Unions between bars -/

/-- An expression with a bar before the first, between any two and behind the last of some texts. -/
def barred : List (List Char) → List Char
  | [] => ['|']
  | text :: texts => '|' :: text ++ barred texts

theorem bar_mem_barred (texts : List (List Char)) : '|' ∈ barred texts := by
  cases texts <;> exact List.mem_cons_self

theorem head?_barred (texts : List (List Char)) : (barred texts).head? = some '|' := by
  cases texts <;> rfl

theorem getLast?_barred (texts : List (List Char)) : (barred texts).getLast? = some '|' := by
  induction texts with
  | nil => rfl
  | cons text texts ih => rw [barred, List.getLast?_append, ih, Option.some_or]

/-- The bars at both ends keep the blanks and brackets of the texts inside. -/
theorem isCore_barred (texts : List (List Char)) : IsCore (barred texts) :=
  isCore_of_ends (head?_barred texts) (getLast?_barred texts) (by decide) (by decide) (by decide)

theorem strip_barred (h : ∀ text ∈ texts, ∀ c ∈ text, isPlain c = true) :
    strip (barred texts) = barred texts := by
  induction texts with
  | nil => decide
  | cons text texts ih =>
    obtain ⟨htext, htexts⟩ := List.forall_mem_cons.1 h
    have hbar : strip ['|'] = ['|'] := by decide
    rw [barred, strip_append, ih htexts, ← List.singleton_append, strip_append, hbar,
      strip_of_isPlain htext]

theorem splitOn_barred (h : ∀ text ∈ texts, '|' ∉ text) :
    Text.splitOn '|' (barred texts) = [] :: texts ++ [[]] := by
  have hbar (cs : List Char) : Text.splitOn '|' ('|' :: cs) = [] :: Text.splitOn '|' cs :=
    Text.splitOn_append_cons List.not_mem_nil cs
  induction texts with
  | nil => decide
  | cons text texts ih =>
    obtain ⟨htext, htexts⟩ := List.forall_mem_cons.1 h
    -- What follows the text begins with the bar at which it ends.
    obtain ⟨rest, hrest⟩ : ∃ rest, barred texts = '|' :: rest := by cases texts <;> exact ⟨_, rfl⟩
    have hsplit : Text.splitOn '|' rest = texts ++ [[]] := by
      rw [← List.cons_inj_right [], ← hbar, ← hrest, ih htexts, List.cons_append]
    rw [barred, List.cons_append, hbar, hrest, Text.splitOn_append_cons htext, hsplit]
    rfl

/-- The texts are found again between the bars. -/
theorem memberTexts_barred (h : ∀ text ∈ texts, ∀ c ∈ text, isPlain c = true)
    (hne : ∀ text ∈ texts, text ≠ []) : memberTexts (barred texts) = texts := by
  rw [memberTexts, strip_barred h,
    splitOn_barred fun text htext => not_mem_of_isPlain (h text htext) (by decide)]
  have hkept : texts.filter (fun text => !text.isEmpty) = texts :=
    List.filter_eq_self.2 fun text htext => by simpa using hne text htext
  simp [List.filter_append, hkept]

theorem ofCore_barred (h : ∀ member ∈ members, IsMember member) :
    ofCore (barred (members.map chars)) = .union members := by
  refine ofCore_of_memberTexts h (bar_mem_barred _) (memberTexts_barred ?_ ?_)
  · exact List.forall_mem_map.2 fun member hmember => (h member hmember).plain
  · exact List.forall_mem_map.2 fun member hmember => (h member hmember).chars_ne_nil

/-! ## Expressible types -/

/-- A type that some expression declares: layers of arrays over a simple type or a union. -/
def IsExpressible (type : DataType) : Prop :=
  ∃ count core, type = arrays count core ∧
    (core.IsSimple IsName ∨
      ∃ members, core = .union members ∧ ∀ member ∈ members, IsUnionMember member)

theorem isExpressible_ofChars (cs : List Char) : IsExpressible (ofChars cs) := by
  rcases ofChars_cases cs with ⟨count, word, heq, hcore, hbar⟩ | ⟨count, members, heq, h, -⟩
  · exact ⟨count, ofWord word, heq, .inl (isSimple_ofWord_of_isCore hcore hbar)⟩
  · exact ⟨count, .union members, heq, .inr ⟨members, rfl, fun member hmember =>
      isMember_iff.1 (h member hmember)⟩⟩

theorem exists_ofChars (h : IsExpressible type) : ∃ cs, ofChars cs = type := by
  obtain ⟨count, core, rfl, hcore | ⟨members, rfl, h⟩⟩ := h
  · refine ⟨core.chars ++ layers count, ?_⟩
    rw [ofChars, layered_append_layers, layered_of_isCore hcore.isCore_chars, ofCore,
      if_neg hcore.bar_not_mem_chars, hcore.ofWord_chars]
  · refine ⟨barred (members.map chars) ++ layers count, ?_⟩
    rw [ofChars, layered_append_layers, layered_of_isCore (isCore_barred _),
      ofCore_barred fun member hmember => isMember_iff.2 (h member hmember)]

/-! ## Nesting of unions -/

mutual

/-- How many unions lie one below another in a type at most. -/
def unionDepth : DataType → Nat
  | .array element => unionDepth element
  | .union members => unionDepthOfMembers members + 1
  | .any | .object | .scalar _ | .custom _ => 0

/-- How many unions lie one below another in some types at most. -/
def unionDepthOfMembers : List DataType → Nat
  | [] => 0
  | member :: members => max (unionDepth member) (unionDepthOfMembers members)

end

theorem unionDepth_arrays (count : Nat) (type : DataType) :
    (arrays count type).unionDepth = type.unionDepth := by
  induction count with
  | zero => rfl
  | succ count ih => rw [arrays, unionDepth, ih]

theorem IsSimple.unionDepth_eq_zero (h : type.IsSimple named) : type.unionDepth = 0 := by
  cases type with
  | array element | union members => exact h.elim
  | _ => rw [unionDepth]

theorem unionDepthOfMembers_eq_zero (h : ∀ member ∈ members, IsUnionMember member) :
    unionDepthOfMembers members = 0 := by
  induction members with
  | nil => rw [unionDepthOfMembers]
  | cons member members ih =>
    obtain ⟨⟨count, core, rfl, hcore, -⟩, hmembers⟩ := List.forall_mem_cons.1 h
    rw [unionDepthOfMembers, unionDepth_arrays, hcore.unionDepth_eq_zero, ih hmembers, Nat.max_self]

/-- No union lies below a union in a type that an expression declares. -/
theorem IsExpressible.unionDepth_le (h : IsExpressible type) : type.unionDepth ≤ 1 := by
  obtain ⟨count, core, rfl, hcore | ⟨members, rfl, h⟩⟩ := h
  · rw [unionDepth_arrays, hcore.unionDepth_eq_zero]
    exact Nat.zero_le 1
  · have hone : (DataType.union members).unionDepth = 1 := by
      rw [unionDepth, unionDepthOfMembers_eq_zero h]
    rw [unionDepth_arrays]
    exact Nat.le_of_eq hone

/-- Expressions declare the expressible types and no others, and no unions below unions. -/
theorem ofString_image :
    (∀ type, (∃ s, ofString s = type) ↔ IsExpressible type) ∧ ∀ s, (ofString s).unionDepth ≤ 1 := by
  refine ⟨fun type => ⟨?_, fun h => ?_⟩, fun s => (isExpressible_ofChars s.toList).unionDepth_le⟩
  · rintro ⟨s, rfl⟩
    exact isExpressible_ofChars s.toList
  · obtain ⟨cs, hcs⟩ := exists_ofChars h
    exact ⟨String.ofList cs, by rw [ofString, String.toList_ofList, hcs]⟩

example : ofString "(|[])" = .union [.array (.custom "")] := by cbv

end RamlDoc.DataType
