import RamlDoc.Proofs.BlocksAligned
import RamlDoc.Proofs.DecimalLines
import RamlDoc.Yaml.Token.Scanner

/-!
# Values that stay open at the end of their line

A value opens a block of lines if it begins a block scalar, or a flow collection that its line does
not close. For the reader this is so behind any dashes, tags and anchors (`LeavesOpen`). The text
pass knows it from single characters (`opensBlock`): it sees no block behind a dash, a tag or an
anchor, none whose comment does not stand behind a space, and takes a flow collection for closed if
its line ends with a bracket of its kind (`Overlooked`). No other block is overlooked
(`opensBlock_eq_false_iff`).
-/

namespace RamlDoc.Fixup

open Yaml

/-! ## What the reader sees -/

/-- Dashes, tags and anchors in front of a value, each with blanks behind it. -/
inductive Leading : List Char → Prop
  | nil : Leading []
  | dash {blanks rest : List Char} (hne : blanks ≠ [])
      (hblanks : ∀ c ∈ blanks, isSpace c = true) (h : Leading rest) :
      Leading ('-' :: (blanks ++ rest))
  | mark {mark : Char} {name blanks rest : List Char} (hmark : mark = '!' ∨ mark = '&')
      (hname : ∀ c ∈ name, isSpace c = false) (hne : blanks ≠ [])
      (hblanks : ∀ c ∈ blanks, isSpace c = true) (h : Leading rest) :
      Leading (mark :: (name ++ (blanks ++ rest)))

/-- A text is the first line of a block scalar: the reader reads it up to its end. -/
def OpensScalar (core : List Char) : Prop :=
  (core.head? = some '|' ∨ core.head? = some '>') ∧
    ∃ chomping increment c,
      Block.readHeader (Cursor.start core) = .ok (chomping, increment, c) ∧ c.rest = []

/-- Whether a token opens a flow collection. -/
def opensFlow (token : Token) : Bool := token = .flowSequenceStart || token = .flowMappingStart

/-- Whether a token closes a flow collection. -/
def closesFlow (token : Token) : Bool := token = .flowSequenceEnd || token = .flowMappingEnd

/-- A text begins a flow collection and does not close it: the reader finds more tokens that open
one than close one. It may take more text to find them, as behind a quote that the line does not
close, but no bracket of that counts. -/
def OpensFlow (core : List Char) : Prop :=
  (core.head? = some '[' ∨ core.head? = some '\x7b') ∧
    ∃ more tokens, (∀ c ∈ more, c ∉ ['[', ']', '\x7b', '\x7d']) ∧
      scan (core ++ more) = .ok tokens ∧ tokens.countP closesFlow < tokens.countP opensFlow

/-- A value opens a block of lines for the reader. -/
inductive LeavesOpen : List Char → Prop
  | scalar {leading core : List Char} (hleading : Leading leading)
      (hcore : OpensScalar core) : LeavesOpen (leading ++ core)
  | flow {leading core : List Char} (hleading : Leading leading)
      (hcore : OpensFlow core) : LeavesOpen (leading ++ core)

/-- What leads up to a value is nothing, or begins a dash, a tag or an anchor. -/
theorem Leading.eq_nil_or_cons {leading : List Char} (h : Leading leading) :
    leading = [] ∨ ∃ mark rest, leading = mark :: rest ∧ mark ∈ ['-', '!', '&'] := by
  cases h with
  | nil => exact .inl rfl
  | dash => exact .inr ⟨_, _, rfl, by decide⟩
  | mark hmark => exact .inr ⟨_, _, rfl, by simpa using .inr hmark⟩

/-- A value that opens a block begins with one of seven characters. -/
theorem LeavesOpen.exists_head {value : List Char} (h : LeavesOpen value) :
    ∃ c ∈ ['-', '!', '&'] ++ ['|', '>', '[', '\x7b'], value.head? = some c := by
  cases h with
  | scalar hleading hcore =>
    rcases hleading.eq_nil_or_cons with rfl | ⟨mark, rest, rfl, hmark⟩
    · rcases hcore.1 with hhead | hhead <;> exact ⟨_, by decide, hhead⟩
    · exact ⟨mark, List.mem_append_left _ hmark, rfl⟩
  | flow hleading hcore =>
    rcases hleading.eq_nil_or_cons with rfl | ⟨mark, rest, rfl, hmark⟩
    · rcases hcore.1 with hhead | hhead <;> exact ⟨_, by decide, hhead⟩
    · exact ⟨mark, List.mem_append_left _ hmark, rfl⟩

/-! ## What the pass overlooks -/

/-- The bracket that closes what another one opens. -/
def closingOf (opening : Char) : Char := if opening = '[' then ']' else '\x7d'

/-- The text pass sees no block that a value opens. -/
inductive Overlooked : List Char → Prop
  /-- A dash, a tag or an anchor stands in front. -/
  | leading {mark : Char} {rest : List Char} (hmark : mark ∈ ['-', '!', '&']) :
      Overlooked (mark :: rest)
  /-- The comment of a block scalar stands behind no space. -/
  | comment {mark : Char} {front comment : List Char} (hmark : mark = '|' ∨ mark = '>')
      (hfront : '#' ∉ front) (hspace : (mark :: front).getLast? ≠ some ' ') :
      Overlooked (mark :: (front ++ '#' :: comment))
  /-- The line of a flow collection ends with a bracket of its kind, a comment apart. -/
  | bracket {opening : Char} {rest : List Char} (hopening : opening = '[' ∨ opening = '\x7b')
      (hlast : (Text.trimEnd (withoutComment (opening :: rest))).getLast? =
        some (closingOf opening)) : Overlooked (opening :: rest)

/-! ## What the pass sees of a value -/

section

variable {cs front comment rest value : List Char} {c : Char}

theorem withoutComment_append_sign (hfront : '#' ∉ front) (hspace : front.getLast? = some ' ') :
    withoutComment (front ++ '#' :: comment) = front.dropLast := by
  obtain ⟨front, rfl⟩ := List.getLast?_eq_some_iff.1 hspace
  rw [List.dropLast_concat]
  induction front with
  | nil => rfl
  | cons c front ih =>
    simp only [List.cons_append, List.mem_cons, not_or] at hfront ⊢
    have hhead : ∀ x ∈ (front ++ [' '] ++ '#' :: comment).head?, x ∈ front ++ [' '] := by
      cases front <;> simp
    rw [withoutComment, if_neg, ih hfront.2 (by simp)]
    simp only [Bool.and_eq_true, decide_eq_true_eq, not_and]
    exact fun _ hsign => hfront.2 (hhead _ hsign)

/-- A comment that stands behind no space is taken for a part of the value. -/
theorem mem_withoutComment_append_sign (hfront : '#' ∉ front)
    (hspace : front.getLast? ≠ some ' ') : '#' ∈ withoutComment (front ++ '#' :: comment) := by
  induction front with
  | nil => simp [withoutComment]
  | cons c front ih =>
    rw [List.mem_cons, not_or] at hfront
    rw [List.cons_append, withoutComment]
    cases front with
    | nil =>
      rw [if_neg (by simpa using hspace)]
      exact List.mem_cons_of_mem _ (ih List.not_mem_nil (by simp))
    | cons d front =>
      rw [List.getLast?_cons_cons] at hspace
      rw [if_neg (by simpa using fun _ => Ne.symm (List.ne_of_not_mem_cons hfront.2))]
      exact List.mem_cons_of_mem _ (ih hfront.2 hspace)

theorem trimEnd_append (hvalue : ∀ x ∈ value.getLast?, Text.isBlank x = false)
    (hrest : ∀ x ∈ rest, Text.isBlank x = true) : Text.trimEnd (value ++ rest) = value := by
  unfold Text.trimEnd Text.dropTailWhile
  rw [List.reverse_append,
    Text.dropWhile_append_of_head (by simpa using hrest) (by simpa using hvalue),
    List.reverse_reverse]

theorem mem_trimEnd (hmem : c ∈ cs) (hc : Text.isBlank c = false) : c ∈ Text.trimEnd cs := by
  obtain ⟨front, rest, rfl⟩ := List.append_of_mem hmem
  rw [Text.trimEnd, Text.dropTailWhile, List.reverse_append, List.reverse_cons, List.append_assoc,
    List.singleton_append, dropWhile_append_cons hc]
  simp

theorem trimEnd_withoutComment_cons (hc : Text.isBlank c = false) :
    Text.trimEnd (withoutComment (c :: rest)) = c :: Text.trimEnd (withoutComment rest) := by
  have hspace : c ≠ ' ' := by
    rintro rfl
    cases hc
  rw [withoutComment, if_neg (by simp [hspace])]
  unfold Text.trimEnd Text.dropTailWhile
  rw [List.reverse_cons, dropWhile_append_cons hc]
  simp

end

/-! ## Block scalars -/

/-- Whether a character is one of the signs behind the indicator of a block scalar. -/
def isSign (c : Char) : Bool := c = '+' || c = '-' || c.isDigit

/-- The first line of a block scalar behind its indicator: signs and blanks, and then a comment or
nothing more. -/
inductive HeaderLine : List Char → Prop
  | comment {signs blanks comment : List Char} (hsigns : ∀ x ∈ signs, isSign x = true)
      (hblanks : ∀ x ∈ blanks, isSpace x = true) : HeaderLine (signs ++ blanks ++ '#' :: comment)
  | bare {signs blanks : List Char} (hsigns : ∀ x ∈ signs, isSign x = true)
      (hblanks : ∀ x ∈ blanks, Text.isBlank x = true) : HeaderLine (signs ++ blanks)

section

open Cursor

variable {c d : Cursor} {chomping : Block.Chomping} {increment : Option Nat}

/-- A cursor is reached from another by passing signs. -/
def PassesSigns (c d : Cursor) : Prop :=
  ∃ signs, c.rest = signs ++ d.rest ∧ ∀ x ∈ signs, isSign x = true

theorem PassesSigns.refl (c : Cursor) : PassesSigns c c := ⟨[], rfl, by simp⟩

theorem PassesSigns.skip_one {x : Char} {rest : List Char} (hrest : c.rest = x :: rest)
    (hx : isSign x = true) (h : PassesSigns (c.skip 1) d) : PassesSigns c d := by
  obtain ⟨signs, hsplit, hsigns⟩ := h
  rw [skip_rest hrest] at hsplit
  exact ⟨x :: signs, by rw [hrest, hsplit, List.cons_append], List.forall_mem_cons.2 ⟨hx, hsigns⟩⟩

theorem PassesSigns.skip_chomping (h : Block.chomping? c = some chomping)
    (hd : PassesSigns (c.skip 1) d) : PassesSigns c d := by
  unfold Block.chomping? at h
  split at h
  next hsees =>
    obtain ⟨rest, hrest⟩ := List.head?_eq_some_iff.1 (of_decide_eq_true hsees)
    exact hd.skip_one hrest (by decide)
  split at h
  next hsees =>
    obtain ⟨rest, hrest⟩ := List.head?_eq_some_iff.1 (of_decide_eq_true hsees)
    exact hd.skip_one hrest (by decide)
  next => cases h

theorem PassesSigns.skip_increment {n : Nat} (h : Block.increment? c = .ok (some n))
    (hd : PassesSigns (c.skip 1) d) : PassesSigns c d := by
  obtain ⟨x, rest, hrest, hdigit⟩ := Block.exists_digit_of_increment? h
  exact hd.skip_one hrest (by simp [isSign, hdigit])

theorem passesSigns_of_readSigns (h : Block.readSigns c = .ok (chomping, increment, d)) :
    PassesSigns c d := by
  unfold Block.readSigns at h
  split at h
  next hchomping =>
    obtain ⟨increment', hincrement, h⟩ := exists_of_bind_eq_ok h
    refine .skip_chomping hchomping ?_
    cases increment' with
    | none =>
      cases h
      exact .refl _
    | some n =>
      cases h
      exact .skip_increment hincrement (.refl _)
  next =>
    obtain ⟨increment', hincrement, h⟩ := exists_of_bind_eq_ok h
    cases increment' with
    | none =>
      cases h
      exact .refl _
    | some n =>
      refine .skip_increment hincrement ?_
      rw [if_neg (by simp)] at h
      dsimp only at h
      split at h
      next hchomping =>
        cases h
        exact .skip_chomping hchomping (.refl _)
      next =>
        cases h
        exact .refl _

theorem isBlank_of_isBreak {x : Char} (h : isBreak x = true) : Text.isBlank x = true := by
  simp only [isBreak, Bool.or_eq_true, decide_eq_true_eq] at h
  rcases h with (((rfl | rfl) | rfl) | rfl) | rfl <;> decide

theorem isBlank_of_isSpace {x : Char} (h : isSpace x = true) : Text.isBlank x = true := by
  rcases eq_of_isSpace h with rfl | rfl <;> decide

/-- What ends a line with nothing behind it is blank. -/
theorem isBlank_of_atLineEnd (hend : c.atLineEnd = true) (hnil : c.skipBreak.rest = []) :
    ∀ x ∈ c.rest, Text.isBlank x = true := by
  cases hrest : c.rest with
  | nil => simp
  | cons x rest =>
    have hx : isBreak x = true := by simpa [atLineEnd, endOr, hrest] using hend
    obtain ⟨text, rest', hb⟩ := exists_breakAt hrest hx
    obtain ⟨-, hbehind, -⟩ := readBreak_spec hb
    obtain rfl : rest' = [] := hbehind.symm.trans hnil
    rw [← hrest]
    generalize c.rest = cs at hb
    cases hb with
    | crlf =>
      exact List.forall_mem_cons.2 ⟨by decide, List.forall_mem_singleton.2 (by decide)⟩
    | one hx => exact List.forall_mem_singleton.2 (isBlank_of_isBreak hx)

/-- A line that the reader takes up to its end for the first line of a block scalar. -/
theorem headerLine_of_readHeader (h : Block.readHeader c = .ok (chomping, increment, d))
    (hnil : d.rest = []) : HeaderLine (c.skip 1).rest := by
  rw [Block.readHeader_eq] at h
  obtain ⟨⟨chomping', increment', e⟩, hsigns, h⟩ := exists_of_bind_eq_ok h
  obtain ⟨signs, hrest, hsign⟩ := passesSigns_of_readSigns hsigns
  dsimp only at h
  split at h
  next hend =>
    cases h
    have hsplit : e.rest = e.takeWhile isSpace ++ (e.skipWhile isSpace).rest :=
      (List.prefix_iff_eq_append.1 (List.takeWhile_prefix isSpace)).symm
    have hspaces : ∀ x ∈ e.takeWhile isSpace, isSpace x = true :=
      List.all_eq_true.1 List.all_takeWhile
    rw [hrest, hsplit]
    generalize e.takeWhile isSpace = blanks at hspaces
    generalize e.skipWhile isSpace = f at hend hnil
    unfold skipComment at hend hnil
    split at hend
    next hsees =>
      obtain ⟨rest, hf⟩ := List.head?_eq_some_iff.1 (of_decide_eq_true hsees)
      rw [hf, ← List.append_assoc]
      exact .comment hsign hspaces
    next hsees =>
      rw [if_neg hsees] at hnil
      refine .bare hsign fun x hx => ?_
      rcases List.mem_append.1 hx with hx | hx
      · exact isBlank_of_isSpace (hspaces x hx)
      · exact isBlank_of_atLineEnd hend hnil x hx
  next => cases h

end

section

variable {value rest : List Char} {mark opening : Char}

theorem isBlank_of_isSign {x : Char} (h : isSign x = true) : Text.isBlank x = false := by
  simp only [isSign, Bool.or_eq_true, decide_eq_true_eq] at h
  rcases h with (rfl | rfl) | hdigit
  · decide
  · decide
  · exact isBlank_of_isDigit hdigit

theorem not_mem_signs {signs : List Char} (hsigns : ∀ x ∈ signs, isSign x = true) {x : Char}
    (hx : isSign x = false) : x ∉ signs := by
  intro hmem
  rw [hsigns x hmem] at hx
  cases hx

/-- An indicator opens a block if there are only signs behind it, apart from blanks and a comment
that the pass sees. -/
theorem opensBlock_indicator (hmark : mark = '|' ∨ mark = '>') :
    opensBlock (mark :: rest) = (Text.trimEnd (withoutComment rest)).all isSign := by
  have hblank : Text.isBlank mark = false := by rcases hmark with rfl | rfl <;> decide
  unfold opensBlock
  rw [trimEnd_withoutComment_cons hblank]
  dsimp only
  rw [if_pos (by simpa using hmark)]
  rfl

/-- A bracket opens a block if the line does not end with the closing one. -/
theorem opensBlock_bracket (hopening : opening = '[' ∨ opening = '\x7b') :
    opensBlock (opening :: rest) =
      decide ((Text.trimEnd (withoutComment (opening :: rest))).getLast? ≠
        some (closingOf opening)) := by
  rcases hopening with rfl | rfl
  all_goals
    unfold opensBlock
    rw [trimEnd_withoutComment_cons (by decide)]
    simp [closingOf]

theorem trimEnd_signs {signs blanks : List Char} (hsigns : ∀ x ∈ signs, isSign x = true)
    (hblanks : ∀ x ∈ blanks, Text.isBlank x = true) : Text.trimEnd (signs ++ blanks) = signs :=
  trimEnd_append (fun x hx => isBlank_of_isSign (hsigns x (List.mem_of_getLast? hx))) hblanks

theorem not_mem_header {signs blanks : List Char} (hsigns : ∀ x ∈ signs, isSign x = true)
    (hblanks : ∀ x ∈ blanks, Text.isBlank x = true) : '#' ∉ signs ++ blanks := by
  rw [List.mem_append, not_or]
  exact ⟨not_mem_signs hsigns (by decide), fun hmem => absurd (hblanks _ hmem) (by decide)⟩

theorem opensBlock_bare {signs blanks : List Char} (hmark : mark = '|' ∨ mark = '>')
    (hsigns : ∀ x ∈ signs, isSign x = true) (hblanks : ∀ x ∈ blanks, Text.isBlank x = true) :
    opensBlock (mark :: (signs ++ blanks)) = true := by
  rw [opensBlock_indicator hmark, withoutComment_of_not_mem (not_mem_header hsigns hblanks),
    trimEnd_signs hsigns hblanks, List.all_eq_true.2 hsigns]

theorem exists_space_of_getLast? {signs blanks : List Char} (hmark : mark = '|' ∨ mark = '>')
    (hsigns : ∀ x ∈ signs, isSign x = true)
    (h : (mark :: (signs ++ blanks)).getLast? = some ' ') : ∃ front, blanks = front ++ [' '] := by
  rcases List.eq_nil_or_concat blanks with rfl | ⟨front, last, rfl⟩
  · have hmem := List.mem_of_getLast? h
    rw [List.append_nil, List.mem_cons] at hmem
    rcases hmem with rfl | hmem
    · simp at hmark
    · exact absurd hmem (not_mem_signs hsigns (by decide))
  · obtain rfl : last = ' ' := by simpa [List.getLast?_cons] using h
    exact ⟨front, List.concat_eq_append⟩

/-- A comment behind a space is cut off with that space, and only signs are left. -/
theorem opensBlock_spaced {signs blanks comment : List Char} (hmark : mark = '|' ∨ mark = '>')
    (hsigns : ∀ x ∈ signs, isSign x = true) (hblanks : ∀ x ∈ blanks, Text.isBlank x = true)
    (hspace : (mark :: (signs ++ blanks)).getLast? = some ' ') :
    opensBlock (mark :: (signs ++ blanks ++ '#' :: comment)) = true := by
  have hsign := not_mem_header hsigns hblanks
  obtain ⟨blanks, rfl⟩ := exists_space_of_getLast? hmark hsigns hspace
  have hfront : ∀ x ∈ blanks, Text.isBlank x = true := fun x hx =>
    hblanks x (List.mem_append_left _ hx)
  rw [opensBlock_indicator hmark, withoutComment_append_sign hsign (by simp), ← List.append_assoc,
    List.dropLast_concat, trimEnd_signs hsigns hfront, List.all_eq_true.2 hsigns]

theorem opensBlock_unspaced {front comment : List Char} (hmark : mark = '|' ∨ mark = '>')
    (hfront : '#' ∉ front) (hspace : (mark :: front).getLast? ≠ some ' ') :
    opensBlock (mark :: (front ++ '#' :: comment)) = false := by
  have hlast : front.getLast? ≠ some ' ' := by
    intro hlast
    exact hspace (by rw [List.getLast?_cons, hlast]; rfl)
  rw [opensBlock_indicator hmark, List.all_eq_false]
  exact ⟨'#', mem_trimEnd (mem_withoutComment_append_sign hfront hlast) (by decide), by decide⟩

theorem exists_cons_of_head? {first second : Char}
    (h : value.head? = some first ∨ value.head? = some second) :
    ∃ c rest, value = c :: rest ∧ (c = first ∨ c = second) := by
  cases value with
  | nil => simp at h
  | cons c rest => exact ⟨c, rest, rfl, by simpa using h⟩

theorem exists_of_overlooked (hmark : mark = '|' ∨ mark = '>') (h : Overlooked (mark :: rest)) :
    ∃ front comment, rest = front ++ '#' :: comment ∧ '#' ∉ front ∧
      (mark :: front).getLast? ≠ some ' ' := by
  cases h with
  | leading hmark' => rcases hmark with rfl | rfl <;> simp at hmark'
  | comment _ hfront hspace => exact ⟨_, _, rfl, hfront, hspace⟩
  | bracket hopening => rcases hmark with rfl | rfl <;> simp at hopening

/-- The pass sees the block of a block scalar, unless its comment stands behind no space. -/
theorem opensBlock_headerLine (hmark : mark = '|' ∨ mark = '>') (h : HeaderLine rest) :
    opensBlock (mark :: rest) = false ↔ Overlooked (mark :: rest) := by
  constructor
  · intro hclosed
    cases h with
    | bare hsigns hblanks =>
      cases hclosed.symm.trans (opensBlock_bare hmark hsigns hblanks)
    | comment hsigns hblanks =>
      have hblanks' := fun x hx => isBlank_of_isSpace (hblanks x hx)
      refine .comment hmark (not_mem_header hsigns hblanks') fun hspace => ?_
      cases hclosed.symm.trans (opensBlock_spaced hmark hsigns hblanks' hspace)
  · intro h
    obtain ⟨front, comment, rfl, hfront, hspace⟩ := exists_of_overlooked hmark h
    exact opensBlock_unspaced hmark hfront hspace

/-- The pass takes a flow collection for closed if its line ends with a bracket of its kind. -/
theorem opensBlock_flow (hstart : value.head? = some '[' ∨ value.head? = some '\x7b') :
    opensBlock value = false ↔ Overlooked value := by
  obtain ⟨opening, rest, rfl, hopening⟩ := exists_cons_of_head? hstart
  rw [opensBlock_bracket hopening, decide_eq_false_iff_not, not_not]
  refine ⟨.bracket hopening, fun h => ?_⟩
  cases h with
  | leading hmark => rcases hopening with rfl | rfl <;> simp at hmark
  | comment hmark => rcases hmark with rfl | rfl <;> simp at hopening
  | bracket _ hlast => exact hlast

/-- The pass sees no block behind a dash, a tag or an anchor. -/
theorem opensBlock_leading (hmark : mark ∈ ['-', '!', '&']) :
    opensBlock (mark :: rest) = false ↔ Overlooked (mark :: rest) := by
  refine iff_of_true (opensBlock_eq_false_of_head fun c hc => ?_) (.leading hmark)
  obtain rfl := Option.some.inj hc
  simp only [List.mem_cons, List.not_mem_nil, or_false] at hmark
  rcases hmark with rfl | rfl | rfl <;> decide

/-- Of the blocks that values open, the pass overlooks those behind a dash, a tag or an anchor,
those whose comment stands behind no space, and those whose line ends with a bracket of their kind,
and no others. -/
theorem opensBlock_eq_false_iff (h : LeavesOpen value) :
    opensBlock value = false ↔ Overlooked value := by
  cases h with
  | scalar hleading hcore =>
    rcases hleading.eq_nil_or_cons with rfl | ⟨mark, rest, rfl, hmark⟩
    · obtain ⟨hstart, chomping, increment, c, hheader, hnil⟩ := hcore
      obtain ⟨mark, rest, rfl, hmark⟩ := exists_cons_of_head? hstart
      exact opensBlock_headerLine hmark (headerLine_of_readHeader hheader hnil)
    · exact opensBlock_leading hmark
  | flow hleading hcore =>
    rcases hleading.eq_nil_or_cons with rfl | ⟨mark, rest, rfl, hmark⟩
    · exact opensBlock_flow hcore.1
    · exact opensBlock_leading hmark

end

end RamlDoc.Fixup
