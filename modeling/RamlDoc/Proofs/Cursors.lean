import RamlDoc.Yaml.Token

/-!
# Advancing cursors

A cursor advances to another by passing characters; on the same line none of them is a line break.
The offset of a cursor stays true to the text on the way, so the rounds that a cursor announces are
more than the characters left to read.
-/

namespace RamlDoc.Yaml

/-- The characters that end a line. -/
def breaks : List Char := ['\n', '\r', '\u0085', '\u2028', '\u2029']

theorem mem_breaks {x : Char} (h : isBreak x = true) : x ∈ breaks := by
  simpa [breaks, isBreak, or_assoc] using h

/-- What no line break satisfies is false of each. -/
theorem eq_false_of_isBreak {test : Char → Bool} (hbreaks : breaks.any test = false) {x : Char}
    (h : isBreak x = true) : test x = false := by
  rw [List.any_eq_false] at hbreaks
  exact Bool.eq_false_iff.2 (hbreaks x (mem_breaks h))

theorem isDigit_of_isBreak (x : Char) (h : isBreak x = true) : x.isDigit = false :=
  eq_false_of_isBreak (by decide) h

theorem isSpace_of_isBreak (x : Char) (h : isBreak x = true) : isSpace x = false :=
  eq_false_of_isBreak (by decide) h

theorem eq_of_isSpace {x : Char} (h : isSpace x = true) : x = ' ' ∨ x = '\t' := by
  simpa only [isSpace, Bool.or_eq_true, decide_eq_true_eq] using h

theorem isBreak_of_isSpace {x : Char} (h : isSpace x = true) : isBreak x = false := by
  rcases eq_of_isSpace h with rfl | rfl <;> decide

/-- How a text holds a line break of its source. -/
def breakText (x : Char) : Char := if x = '\u2028' || x = '\u2029' then x else '\n'

/-- A text begins with a line break, which a scalar holds as some text, and goes on behind it. -/
inductive BreakAt : List Char → List Char → List Char → Prop
  | crlf {rest : List Char} : BreakAt ('\r' :: '\n' :: rest) ['\n'] rest
  | one {x : Char} {rest : List Char} (hx : isBreak x = true)
    (hrest : x = '\r' → rest.head? ≠ some '\n') : BreakAt (x :: rest) [breakText x] rest

theorem BreakAt.head {cs text rest : List Char} (h : BreakAt cs text rest) :
    ∃ x tail, cs = x :: tail ∧ isBreak x = true := by
  cases h with
  | crlf => exact ⟨_, _, rfl, by decide⟩
  | one hx => exact ⟨_, _, rfl, hx⟩

theorem BreakAt.length_lt {cs text rest : List Char} (h : BreakAt cs text rest) :
    rest.length < cs.length := by
  cases h with
  | crlf => exact Nat.lt_succ_of_lt (Nat.lt_succ_self _)
  | one => exact Nat.lt_succ_self _

theorem not_isBreak_of_isDigit {x : Char} (h : x.isDigit = true) : isBreak x = false := by
  cases hx : isBreak x with
  | false => rfl
  | true =>
    rw [isDigit_of_isBreak x hx] at h
    cases h

theorem not_isSpace_of_isDigit {x : Char} (h : x.isDigit = true) : isSpace x = false := by
  cases hx : isSpace x with
  | false => rfl
  | true =>
    rcases eq_of_isSpace hx with rfl | rfl <;> revert h <;> decide

/-- A character that neither ends a line nor marks a value. -/
def IsInner (x : Char) : Prop := isBreak x = false ∧ x ≠ ':'

/-- What a function knows, but neither a colon nor a line break, is an inner character. -/
theorem isInner_of {α : Type} {f : Char → Option α} {x : Char} (h : (f x).isSome = true)
    (hcolon : f ':' = none) (hbreaks : (breaks.any fun y => (f y).isSome) = false) :
    IsInner x := by
  constructor
  · cases hx : isBreak x with
    | false => rfl
    | true =>
      rw [@eq_false_of_isBreak (fun y => (f y).isSome) hbreaks x hx] at h
      cases h
  · rintro rfl
    rw [hcolon] at h
    cases h

namespace Cursor

/-- The offset of a cursor is what comes before it. -/
def Valid (c : Cursor) : Prop := c.offset + Text.byteLength c.rest = c.size

/-- A cursor is reached from another by passing characters. -/
structure Advances (c d : Cursor) : Prop where
  passes : ∃ passed, c.rest = passed ++ d.rest ∧
    ((d.line = c.line ∧ ∀ x ∈ passed, isBreak x = false) ∨ c.line < d.line)
  valid : c.Valid → d.Valid

section

variable {c d e : Cursor}

theorem valid_start (text : List Char) : (start text).Valid := Nat.zero_add _

theorem length_le_byteLength (cs : List Char) : cs.length ≤ Text.byteLength cs := by
  induction cs with
  | nil => exact Nat.le_refl _
  | cons c cs ih =>
    have := c.utf8Size_pos
    rw [Text.byteLength_cons, List.length_cons]
    omega

/-- A loop has rounds for all that is left to read. -/
theorem Valid.length_lt_rounds (h : c.Valid) : c.rest.length < c.rounds := by
  have hlength := length_le_byteLength c.rest
  unfold Valid at h
  unfold rounds
  omega

theorem Advances.refl (c : Cursor) : c.Advances c := ⟨⟨[], rfl, .inl ⟨rfl, nofun⟩⟩, id⟩

/-- Characters that are passed one after the other are passed together. -/
theorem Advances.trans (h : c.Advances d) (h' : d.Advances e) : c.Advances e := by
  obtain ⟨⟨passed, hrest, hline⟩, hvalid⟩ := h
  obtain ⟨⟨passed', hrest', hline'⟩, hvalid'⟩ := h'
  refine ⟨⟨passed ++ passed', by rw [hrest, hrest', List.append_assoc], ?_⟩, hvalid' ∘ hvalid⟩
  rcases hline with ⟨hline, hpassed⟩ | hline
  · rcases hline' with ⟨hline', hpassed'⟩ | hline'
    · refine .inl ⟨hline'.trans hline, fun x hx => ?_⟩
      rcases List.mem_append.1 hx with hx | hx
      · exact hpassed x hx
      · exact hpassed' x hx
    · exact .inr (hline ▸ hline')
  · rcases hline' with ⟨hline', -⟩ | hline'
    · exact .inr (hline' ▸ hline)
    · exact .inr (Nat.lt_trans hline hline')

theorem Advances.line_le (h : c.Advances d) : c.line ≤ d.line := by
  obtain ⟨_, -, ⟨hline, -⟩ | hline⟩ := h.passes <;> omega

theorem Advances.length_le (h : c.Advances d) : d.rest.length ≤ c.rest.length := by
  obtain ⟨passed, hrest, -⟩ := h.passes
  rw [hrest, List.length_append]
  omega

theorem Advances.length_lt_of_ne (h : c.Advances d) (hne : d.rest ≠ c.rest) :
    d.rest.length < c.rest.length := by
  obtain ⟨passed, hrest, -⟩ := h.passes
  cases passed with
  | nil => exact absurd hrest.symm hne
  | cons x passed =>
    rw [hrest, List.length_append, List.length_cons]
    omega

theorem skip_zero (c : Cursor) : c.skip 0 = c := by
  cases c
  simp [skip, Text.byteLength]

theorem skip_skip (c : Cursor) (m n : Nat) : (c.skip m).skip n = c.skip (m + n) := by
  cases c
  simp only [skip, List.drop_drop, mk.injEq, true_and, and_true, List.take_add,
    Text.byteLength_append]
  omega

theorem skip_rest {x : Char} {rest : List Char} (h : c.rest = x :: rest) : (c.skip 1).rest = rest := by
  rw [skip, h]
  rfl

/-- Skipping characters on a line advances. -/
theorem advances_skip {count : Nat} (h : ∀ x ∈ c.rest.take count, isBreak x = false) :
    c.Advances (c.skip count) := by
  refine ⟨⟨c.rest.take count, (List.take_append_drop count c.rest).symm, .inl ⟨rfl, h⟩⟩, ?_⟩
  intro hvalid
  unfold Valid skip at *
  have hsplit := congrArg Text.byteLength (List.take_append_drop count c.rest)
  rw [Text.byteLength_append] at hsplit
  dsimp only
  omega

theorem advances_skip_one {x : Char} {rest : List Char} (h : c.rest = x :: rest)
    (hx : isBreak x = false) : c.Advances (c.skip 1) := by
  refine advances_skip fun y hy => ?_
  rw [h, List.take_succ_cons, List.take_zero, List.mem_singleton] at hy
  rw [hy, hx]

theorem advances_skip_of_le {f : Char → Bool} {count : Nat} (h : ∀ x, isBreak x = true → f x = false)
    (hcount : count ≤ (c.takeWhile f).length) : c.Advances (c.skip count) := by
  refine advances_skip fun x hx => ?_
  have htake := List.prefix_iff_eq_take.1 (List.takeWhile_prefix f : c.takeWhile f <+: c.rest)
  have hmem : x ∈ c.takeWhile f := by
    change x ∈ c.rest.takeWhile f
    rw [htake]
    exact List.take_subset_take_left _ hcount hx
  have hf := List.all_eq_true.1 List.all_takeWhile x hmem
  cases hbreak : isBreak x with
  | false => rfl
  | true => rw [h x hbreak] at hf; cases hf

theorem skip_takeWhile (f : Char → Bool) (c : Cursor) :
    c.skip (c.takeWhile f).length = c.skipWhile f := rfl

/-- Skipping characters of a class advances, if no line break is in it. -/
theorem advances_skipWhile {f : Char → Bool} (h : ∀ x, isBreak x = true → f x = false) :
    c.Advances (c.skipWhile f) :=
  advances_skip_of_le h (Nat.le_refl _)

theorem advances_skipComment (c : Cursor) : c.Advances c.skipComment := by
  unfold skipComment
  split
  · exact advances_skipWhile fun x hx => by rw [hx]; rfl
  · exact .refl c

/-- What reading a line break does. -/
theorem readBreak_spec {text rest : List Char} (h : BreakAt c.rest text rest) :
    c.readBreak.1 = text ∧ c.readBreak.2.rest = rest ∧ c.readBreak.2.column = 0 ∧
      c.line < c.readBreak.2.line ∧ c.Advances c.readBreak.2 := by
  obtain ⟨cs, offset, line, column, size⟩ := c
  dsimp only at h
  cases h with
  | crlf =>
    refine ⟨rfl, rfl, rfl, Nat.lt_succ_self _, ⟨['\r', '\n'], rfl, .inr (Nat.lt_succ_self _)⟩, ?_⟩
    intro hvalid
    have hr : Char.utf8Size '\r' = 1 := rfl
    have hn : Char.utf8Size '\n' = 1 := rfl
    simp only [Valid, readBreak, nextLine, Text.byteLength_cons] at *
    omega
  | @one x rest hx hrest =>
    have hread : readBreak ⟨x :: rest, offset, line, column, size⟩ =
        ([breakText x], nextLine ⟨x :: rest, offset, line, column, size⟩ rest x.utf8Size) := by
      unfold readBreak
      split
      next heq =>
        obtain ⟨rfl, rfl⟩ := List.cons.inj heq
        exact absurd rfl (hrest rfl)
      next heq =>
        obtain ⟨rfl, rfl⟩ := List.cons.inj heq
        rw [if_pos hx]
        rfl
      next heq => cases heq
    rw [hread]
    refine ⟨rfl, rfl, rfl, Nat.lt_succ_self _, ⟨[x], rfl, .inr (Nat.lt_succ_self _)⟩, ?_⟩
    intro hvalid
    simp only [Valid, nextLine, Text.byteLength_cons] at *
    omega

theorem exists_breakAt {x : Char} {rest : List Char} (h : c.rest = x :: rest)
    (hx : isBreak x = true) : ∃ text rest', BreakAt c.rest text rest' := by
  rw [h]
  by_cases hfeed : x = '\r' ∧ rest.head? = some '\n'
  · obtain ⟨rfl, hfeed⟩ := hfeed
    obtain ⟨rest', rfl⟩ := List.head?_eq_some_iff.1 hfeed
    exact ⟨_, _, .crlf⟩
  · exact ⟨_, _, .one hx fun heq hhead => hfeed ⟨heq, hhead⟩⟩

theorem sees_of_breakAt {text rest : List Char} {mark : Char} (h : BreakAt c.rest text rest)
    (hmark : isBreak mark = false) : c.sees mark = false := by
  obtain ⟨x, tail, hrest, hx⟩ := h.head
  rw [sees, peek?, hrest]
  refine decide_eq_false fun heq => ?_
  rw [Option.some.inj heq, hmark] at hx
  cases hx

theorem atBoundary_of_ne {x mark : Char} {rest : List Char} (h : c.rest = x :: rest) (hne : x ≠ mark) :
    c.atBoundary mark = false := by
  unfold atBoundary
  rw [h, List.take_succ_cons, decide_eq_false (fun heq => hne (List.cons.inj heq).1), Bool.and_false,
    Bool.false_and]

theorem length_skip_lt {x : Char} {rest : List Char} (h : c.rest = x :: rest) {count : Nat}
    (hcount : 0 < count) : (c.skip count).rest.length < c.rest.length := by
  rw [skip, List.length_drop, h, List.length_cons]
  omega

theorem readBreak_of_not (h : c.peek?.any isBreak = false) : c.readBreak = ([], c) := by
  unfold peek? at h
  unfold readBreak
  split
  next heq => rw [heq] at h; cases h
  next x rest _ heq =>
    rw [heq] at h
    have hx : isBreak x = false := h
    rw [hx]
    rfl
  next => rfl

/-- Reading a line break advances, also where there is none. -/
theorem advances_readBreak (c : Cursor) : c.Advances c.readBreak.2 := by
  cases h : c.peek?.any isBreak with
  | false =>
    rw [readBreak_of_not h]
    exact .refl c
  | true =>
    obtain ⟨x, hx, hbreak⟩ := (Option.any_eq_true _ _).1 h
    obtain ⟨rest, hrest⟩ := List.head?_eq_some_iff.1 hx
    obtain ⟨text, rest', hb⟩ := exists_breakAt hrest hbreak
    exact (readBreak_spec hb).2.2.2.2

/-- A line break that is there is passed. -/
theorem length_readBreak_lt (h : c.peek?.any isBreak = true) :
    c.readBreak.2.rest.length < c.rest.length := by
  obtain ⟨x, hx, hbreak⟩ := (Option.any_eq_true _ _).1 h
  obtain ⟨rest, hrest⟩ := List.head?_eq_some_iff.1 hx
  obtain ⟨text, rest', hb⟩ := exists_breakAt hrest hbreak
  rw [(readBreak_spec hb).2.1]
  exact hb.length_lt

/-- There is no colon in what is left of the line. -/
def ColonFree (c : Cursor) : Prop := ∀ x ∈ c.takeWhile fun x => !isBreak x, x ≠ ':'

/-- A cursor is reached from another, on a later line or where no colon is left on the line. -/
structure Sealed (c d : Cursor) : Prop where
  advances : c.Advances d
  free : c.line < d.line ∨ d.ColonFree

theorem ColonFree.not_sees (h : c.ColonFree) : c.sees ':' = false := by
  cases hsees : c.sees ':' with
  | false => rfl
  | true =>
    obtain ⟨rest, hrest⟩ := List.head?_eq_some_iff.1 (of_decide_eq_true hsees)
    refine absurd rfl (h ':' ?_)
    rw [takeWhile, hrest]
    exact List.mem_cons_self

theorem ColonFree.of_append {d : Cursor} {passed : List Char} (h : c.ColonFree)
    (hrest : c.rest = passed ++ d.rest) (hpassed : ∀ x ∈ passed, isBreak x = false) :
    d.ColonFree := by
  intro x hx
  refine h x ?_
  unfold takeWhile at *
  rw [hrest, List.takeWhile_append_of_pos fun y hy => by rw [hpassed y hy]; rfl]
  exact List.mem_append_right _ hx

theorem ColonFree.sealed (hc : c.ColonFree) (h : c.Advances d) : c.Sealed d := by
  refine ⟨h, ?_⟩
  obtain ⟨passed, hrest, ⟨-, hpassed⟩ | hline⟩ := h.passes
  · exact .inr (hc.of_append hrest hpassed)
  · exact .inl hline

theorem Sealed.of_advances (h : d.Sealed e) (hc : c.Advances d) : c.Sealed e :=
  ⟨hc.trans h.advances, h.free.imp_left fun hline => Nat.lt_of_le_of_lt hc.line_le hline⟩

theorem Sealed.advance (h : c.Sealed d) (hd : d.Advances e) : c.Sealed e := by
  refine ⟨h.advances.trans hd, ?_⟩
  rcases h.free with hline | hfree
  · exact .inl (Nat.lt_of_lt_of_le hline hd.line_le)
  · refine (hfree.sealed hd).free.imp_left fun hline => ?_
    exact Nat.lt_of_le_of_lt h.advances.line_le hline

end

end Cursor

end RamlDoc.Yaml
