import Mathlib.Data.List.TakeWhile
import RamlDoc.Fixup.TextPass
import RamlDoc.Proofs.NodeStyles

/-!
# Lines with a decimal

A line that the text pass may change is an entry with a decimal for its value: a front without a
number sign that ends with a colon and blanks, the decimal, and blanks again
(`quotedDecimal?_eq_some_iff`). What the pass sees of such a line apart from the decimal lies in the
front. So the line opens the same levels and the same block whether the decimal is in quotes or not
(`passLine_of_quotesDecimal`).
-/

namespace RamlDoc.Fixup

open Yaml

variable {key blanks front decimal after core line fixed : List Char}

/-! ## The decimal of a line -/

/-- The part of a line before a decimal: a key that does not begin with a dash, a colon, and blanks,
all without a number sign. -/
inductive IsFront : List Char → Prop
  | mk {key blanks : List Char} (hsign : '#' ∉ key)
      (hstart : ∃ c rest, key.dropWhile Text.isAsciiBlank = c :: rest ∧ c ≠ '-')
      (hne : blanks ≠ []) (hblanks : ∀ x ∈ blanks, Text.isAsciiBlank x = true) :
      IsFront (key ++ ':' :: blanks)

/-- A line with a decimal behind such a front and blanks at its end, and the line with the decimal
in quotes and without these blanks. -/
inductive QuotesDecimal : List Char → List Char → Prop
  | mk {front decimal after : List Char} (hfront : IsFront front)
      (hdecimal : isDecimal decimal = true)
      (hafter : ∀ x ∈ after, Text.isAsciiBlank x = true) :
      QuotesDecimal (front ++ (decimal ++ after)) (front ++ '"' :: (decimal ++ ['"']))

theorem forall_head?_append {P : Char → Prop} {xs ys : List Char} (hne : xs ≠ [])
    (hxs : ∀ x ∈ xs, P x) : ∀ x ∈ (xs ++ ys).head?, P x := by
  cases xs with
  | nil => exact absurd rfl hne
  | cons x xs =>
    intro y hy
    obtain rfl := Option.some.inj hy
    exact hxs x List.mem_cons_self

theorem isBlank_of_isDigit {x : Char} (h : x.isDigit = true) : Text.isBlank x = false := by
  have hrange : 48 ≤ x.toNat ∧ x.toNat ≤ 57 := by
    delta Char.isDigit at h
    simpa [UInt32.le_iff_toNat_le] using h
  rw [Bool.eq_false_iff]
  intro hblank
  simp only [Text.isBlank, Bool.or_eq_true, Bool.and_eq_true, decide_eq_true_eq] at hblank
  omega

theorem isAsciiBlank_of_isBlank {x : Char} (h : Text.isBlank x = false) :
    Text.isAsciiBlank x = false := by
  rw [Bool.eq_false_iff]
  intro hblank
  exact absurd (Text.isBlank_of_isAsciiBlank hblank) (by simp [h])

theorem isDigit_of_isAsciiBlank {x : Char} (h : Text.isAsciiBlank x = true) :
    x.isDigit = false := by
  rw [Bool.eq_false_iff]
  intro hdigit
  exact absurd (h.symm.trans (isAsciiBlank_of_isBlank (isBlank_of_isDigit hdigit))) (by decide)

/-- The pattern looks at a line from its end; this is what it finds of a line with a decimal. -/
theorem quotedDecimal?_front {whole part : List Char} (hfront : IsFront front) (hwhole : whole ≠ [])
    (hpart : part ≠ []) (hdigits : ∀ x ∈ whole, x.isDigit = true)
    (hdigits' : ∀ x ∈ part, x.isDigit = true) (hafter : ∀ x ∈ after, Text.isAsciiBlank x = true) :
    quotedDecimal? (front ++ (whole ++ ',' :: part ++ after)) =
      some (front ++ '"' :: (whole ++ ',' :: part ++ ['"'])) := by
  obtain @⟨key, blanks, hsign, ⟨c, rest, hstart, hdash⟩, hne, hblanks⟩ := hfront
  have hreverse : (key ++ ':' :: blanks ++ (whole ++ ',' :: part ++ after)).reverse =
      after.reverse ++ (part.reverse ++ ',' :: (whole.reverse ++ (blanks.reverse ++ ':' ::
        key.reverse))) := by simp
  have hpos : ∀ {P : Char → Prop} {cs : List Char}, (∀ x ∈ cs, P x) → ∀ x ∈ cs.reverse, P x :=
    fun h x hx => h x (List.mem_reverse.1 hx)
  have hlast : ∀ x ∈ (part.reverse ++ ',' :: (whole.reverse ++ (blanks.reverse ++ ':' ::
      key.reverse))).head?, Text.isAsciiBlank x = false :=
    forall_head?_append (by simpa using hpart)
      (hpos fun x hx => isAsciiBlank_of_isBlank (isBlank_of_isDigit (hdigits' x hx)))
  have hfirst : ∀ x ∈ (blanks.reverse ++ ':' :: key.reverse).head?, x.isDigit = false :=
    forall_head?_append (by simpa using hne)
      (hpos fun x hx => isDigit_of_isAsciiBlank (hblanks x hx))
  have hcomma : ∀ {cs : List Char}, ∀ x ∈ (',' :: cs).head?, x.isDigit = false :=
    fun x hx => Option.some.inj hx ▸ by decide
  have hcolon : ∀ {cs : List Char}, ∀ x ∈ (':' :: cs).head?, Text.isAsciiBlank x = false :=
    fun x hx => Option.some.inj hx ▸ by decide
  unfold quotedDecimal?
  rw [hreverse, Text.dropWhile_append_of_head (hpos hafter) hlast]
  simp only [Text.dropWhile_append_of_head (hpos hdigits') hcomma,
    Text.takeWhile_append_of_head (hpos hdigits') hcomma,
    Text.dropWhile_append_of_head (hpos hdigits) hfirst,
    Text.takeWhile_append_of_head (hpos hdigits) hfirst,
    Text.dropWhile_append_of_head (hpos hblanks) hcolon,
    Text.takeWhile_append_of_head (hpos hblanks) hcolon, List.reverse_reverse, hstart]
  rw [if_neg (by simp [hwhole, hpart, hne, hdash, hsign])]
  simp

theorem quotesDecimal_of_eq_some (h : quotedDecimal? line = some fixed) :
    QuotesDecimal line fixed := by
  have hall : ∀ (p : Char → Bool) (cs : List Char), ∀ x ∈ (cs.takeWhile p).reverse, p x = true :=
    fun p cs x hx => List.all_eq_true.1 List.all_takeWhile x (List.mem_reverse.1 hx)
  have hsplit := @List.takeWhile_append_dropWhile Char
  unfold quotedDecimal? at h
  dsimp only at h
  generalize hreversed : line.reverse.dropWhile Text.isAsciiBlank = reversed at h
  split at h
  next rest hrest =>
    generalize hfront : rest.dropWhile Char.isDigit = front at h
    split at h
    next key hkey =>
      split at h
      next c start hstart =>
        split at h
        · cases h
        next hguard =>
          simp only [Bool.or_eq_true, List.isEmpty_iff, decide_eq_true_eq, not_or] at hguard
          obtain ⟨⟨⟨⟨hafter, hbefore⟩, hblanks⟩, hdash⟩, hsign⟩ := hguard
          have hfronts : front.reverse =
              key.reverse ++ ':' :: (front.takeWhile Text.isAsciiBlank).reverse := calc
            front.reverse = (front.takeWhile Text.isAsciiBlank ++ ':' :: key).reverse := by
              rw [← hkey, hsplit]
            _ = key.reverse ++ ':' :: (front.takeWhile Text.isAsciiBlank).reverse := by simp
          -- The line is split from its end: blanks, digits, the comma, digits, the front.
          have hline : line.reverse = line.reverse.takeWhile Text.isAsciiBlank ++
              (reversed.takeWhile Char.isDigit ++
                ',' :: (rest.takeWhile Char.isDigit ++ front)) := by
            rw [← hfront, hsplit, ← hrest, hsplit, ← hreversed, hsplit]
          have hisFront : IsFront front.reverse := by
            rw [hfronts]
            exact .mk (by simpa using hsign) ⟨c, start, hstart, hdash⟩ (by simpa using hblanks)
              (hall _ _)
          have hdecimal : isDecimal ((rest.takeWhile Char.isDigit).reverse ++
              ',' :: (reversed.takeWhile Char.isDigit).reverse) = true :=
            isDecimal_iff.2 ⟨_, _, rfl, by simpa using hbefore, by simpa using hafter, hall _ _,
              hall _ _⟩
          have hquotes := QuotesDecimal.mk hisFront hdecimal
            (hall Text.isAsciiBlank line.reverse)
          have hline' := congrArg List.reverse hline
          rw [List.reverse_reverse] at hline'
          rw [← Option.some.inj h, hline']
          simpa using hquotes
      next => cases h
    next => cases h
  next => cases h

/-- The pattern finds just the lines with a decimal, and puts the decimal in quotes. -/
theorem quotedDecimal?_eq_some_iff :
    quotedDecimal? line = some fixed ↔ QuotesDecimal line fixed := by
  constructor
  · exact quotesDecimal_of_eq_some
  · rintro ⟨hfront, hdecimal, hafter⟩
    obtain ⟨whole, part, rfl, hwhole, hpart, hdigits, hdigits'⟩ := isDecimal_iff.1 hdecimal
    exact quotedDecimal?_front hfront hwhole hpart hdigits hdigits' hafter

theorem quotedDecimal?_of_quotesDecimal (h : QuotesDecimal line fixed) :
    quotedDecimal? fixed = none := by
  obtain @⟨front, decimal, after, -, -, -⟩ := h
  have hreverse : (front ++ '"' :: (decimal ++ ['"'])).reverse =
      '"' :: (decimal.reverse ++ '"' :: front.reverse) := by simp
  unfold quotedDecimal?
  rw [hreverse, List.dropWhile_cons_of_neg (by decide)]
  dsimp only
  rw [List.dropWhile_cons_of_neg (by decide)]
  rfl

theorem QuotesDecimal.ne (h : QuotesDecimal line fixed) : fixed ≠ line := by
  rintro rfl
  cases (quotedDecimal?_eq_some_iff.2 h).symm.trans (quotedDecimal?_of_quotesDecimal h)

/-! ## What the pass sees of a front -/

section

variable {p : Char → Bool} {x : Char} {xs ys cs before found behind inner tail : List Char}

theorem dropWhile_append_cons (hx : p x = false) (cs xs : List Char) :
    (cs ++ x :: xs).dropWhile p = cs.dropWhile p ++ x :: xs := by
  rw [List.dropWhile_append]
  split
  next hnil =>
    rw [List.isEmpty_iff.1 hnil, List.dropWhile_cons_of_neg (by simp [hx]), List.nil_append]
  next => rfl

theorem takeWhile_append_cons (hx : p x = false) (cs xs : List Char) :
    (cs ++ x :: xs).takeWhile p = cs.takeWhile p := by
  have h : (cs ++ x :: xs).takeWhile p ++ (cs ++ x :: xs).dropWhile p =
      cs.takeWhile p ++ (cs ++ x :: xs).dropWhile p := by
    rw [List.takeWhile_append_dropWhile, dropWhile_append_cons hx, ← List.append_assoc,
      List.takeWhile_append_dropWhile]
  exact List.append_cancel_right h

theorem isItem_append_colon (cs xs ys : List Char) :
    isItem (cs ++ ':' :: xs) = isItem (cs ++ ':' :: ys) := by
  unfold isItem
  match cs with
  | [] => rfl
  | [c] =>
    by_cases hc : c = '-'
    · subst hc
      rfl
    · simp [hc]
  | c :: d :: cs =>
    by_cases hc : c = '-'
    · by_cases hd : d = ' '
      · simp [hc, hd]
      · simp [hd]
    · simp [hc]

theorem not_mem_sign_of_blanks (hblanks : ∀ x ∈ blanks, Text.isAsciiBlank x = true) :
    '#' ∉ blanks := fun hmem => absurd (hblanks _ hmem) (by decide)

theorem IsFront.not_mem_sign (hfront : IsFront front) : '#' ∉ front := by
  obtain ⟨hsign, -, -, hblanks⟩ := hfront
  intro hmem
  rcases List.mem_append.1 hmem with hmem | hmem
  · exact hsign hmem
  · exact not_mem_sign_of_blanks hblanks (List.mem_of_ne_of_mem (by decide) hmem)

theorem IsFront.trimStart_append (hfront : IsFront front) (tail : List Char) :
    ∃ start rest, Text.trimStart front = start ++ ':' :: rest ∧
      Text.trimStart (front ++ tail) = start ++ ':' :: (rest ++ tail) := by
  obtain @⟨key, blanks, -, -, -, -⟩ := hfront
  refine ⟨Text.trimStart key, blanks, dropWhile_append_cons rfl _ _, ?_⟩
  rw [List.append_assoc, List.cons_append]
  exact dropWhile_append_cons rfl _ _

theorem IsFront.isSkipped_append (hfront : IsFront front) (tail : List Char) :
    isSkipped (front ++ tail) = false := by
  obtain ⟨start, rest, hstart, happend⟩ := hfront.trimStart_append tail
  have hsign : '#' ∉ start ++ ':' :: rest := by
    intro hmem
    rw [← hstart] at hmem
    exact hfront.not_mem_sign ((List.dropWhile_sublist _).subset hmem)
  unfold isSkipped
  rw [happend]
  cases start with
  | nil => rfl
  | cons c start =>
    rw [List.cons_append, List.mem_cons, not_or] at hsign
    simpa using Ne.symm hsign.1

theorem IsFront.indentation_append (hfront : IsFront front) (tail : List Char) :
    indentation (front ++ tail) = indentation front := by
  obtain @⟨key, blanks, -, -, -, -⟩ := hfront
  unfold indentation
  rw [List.append_assoc, List.cons_append, takeWhile_append_cons rfl, takeWhile_append_cons rfl]

theorem IsFront.isItem_append (hfront : IsFront front) (tail : List Char) :
    isItem (Text.trimStart (front ++ tail)) = isItem (Text.trimStart front) := by
  obtain ⟨start, rest, hstart, happend⟩ := hfront.trimStart_append tail
  rw [hstart, happend, isItem_append_colon]

/-! ## The entry of a line with a decimal -/

/-- What stands at the end of a value that is a decimal, with or without quotes around it. -/
structure IsCore (core : List Char) : Prop where
  ne_nil : core ≠ []
  chars : ∀ x ∈ core, x.isDigit = true ∨ x = ',' ∨ x = '"'

theorem isCore_of_isDecimal (h : isDecimal decimal = true) : IsCore decimal := by
  obtain ⟨whole, part, rfl, -, -, hdigits, hdigits'⟩ := isDecimal_iff.1 h
  refine ⟨by simp, fun x hx => ?_⟩
  rw [List.mem_append, List.mem_cons] at hx
  rcases hx with hx | hx | hx
  · exact .inl (hdigits x hx)
  · exact .inr (.inl hx)
  · exact .inl (hdigits' x hx)

theorem isCore_quoted (h : isDecimal decimal = true) : IsCore ('"' :: (decimal ++ ['"'])) := by
  refine ⟨List.cons_ne_nil _ _, fun x hx => ?_⟩
  rw [List.mem_cons, List.mem_append, List.mem_singleton] at hx
  rcases hx with hx | hx | hx
  · exact .inr (.inr hx)
  · exact (isCore_of_isDecimal h).chars x hx
  · exact .inr (.inr hx)

theorem IsCore.isBlank (hcore : IsCore core) (hx : x ∈ core) : Text.isBlank x = false := by
  rcases hcore.chars x hx with hdigit | rfl | rfl
  · exact isBlank_of_isDigit hdigit
  · rfl
  · rfl

theorem IsCore.isAsciiBlank (hcore : IsCore core) (hx : x ∈ core) : Text.isAsciiBlank x = false :=
  isAsciiBlank_of_isBlank (hcore.isBlank hx)

/-- A character that means something in a value is none of those of a decimal. -/
theorem IsCore.ne (hcore : IsCore core) (hx : x ∈ core) {c : Char} (hdigit : c.isDigit = false)
    (hcomma : c ≠ ',') (hquote : c ≠ '"') : x ≠ c := by
  rintro rfl
  rcases hcore.chars x hx with h | h | h
  · exact absurd (h.symm.trans hdigit) (by decide)
  · exact hcomma h
  · exact hquote h

/-- The colon that ends a key stays where it is when a text with something behind it gets longer. -/
theorem cutKey?_append_tail (h : cutKey? before cs = some (found, behind)) (hne : behind ≠ [])
    (tail : List Char) : cutKey? before (cs ++ tail) = some (found, behind ++ tail) := by
  induction cs generalizing before with
  | nil => cases h
  | cons c cs ih =>
    rw [cutKey?] at h
    rw [List.cons_append, cutKey?]
    split at h
    · cases h
    next hsign =>
      rw [if_neg hsign]
      cases cs with
      | nil =>
        split at h
        · obtain ⟨-, rfl⟩ := Prod.mk.inj (Option.some.inj h)
          exact absurd rfl hne
        · cases h
      | cons d cs =>
        rw [List.cons_append, List.head?_cons]
        rw [List.head?_cons] at h
        split at h
        next hcolon =>
          obtain ⟨rfl, rfl⟩ := Prod.mk.inj (Option.some.inj h)
          rw [if_pos hcolon]
          rfl
        next hcolon =>
          rw [if_neg hcolon]
          exact ih h

/-- What may stand in a value before the decimal: a text without a number sign, and not without a
colon unless it is empty. -/
structure IsInner (inner : List Char) : Prop where
  sign : '#' ∉ inner
  colon : inner = [] ∨ ':' ∈ inner

/-- A front has a key: the text before its last colon or one before that. -/
theorem exists_cutKey? (hsign : '#' ∉ key) (hbefore : before ≠ []) (hne : blanks ≠ [])
    (hblanks : ∀ x ∈ blanks, Text.isAsciiBlank x = true) :
    ∃ found behind, cutKey? before (key ++ ':' :: blanks) = some (found, behind) ∧ behind ≠ [] ∧
      IsInner (behind.dropWhile Text.isAsciiBlank) := by
  induction key generalizing before with
  | nil =>
    refine ⟨before.reverse, blanks, ?_, hne, ?_⟩
    · rw [List.nil_append, cutKey?, if_neg (by decide), if_pos]
      obtain ⟨b, bs, rfl⟩ := List.exists_cons_of_ne_nil hne
      simpa [hbefore] using hblanks b List.mem_cons_self
    · rw [List.dropWhile_eq_nil_iff.2 hblanks]
      exact ⟨List.not_mem_nil, .inl rfl⟩
  | cons c key ih =>
    rw [List.mem_cons, not_or] at hsign
    rw [List.cons_append, cutKey?, if_neg (Ne.symm hsign.1)]
    split
    · refine ⟨_, _, rfl, by simp, ?_⟩
      rw [dropWhile_append_cons rfl]
      refine ⟨fun hmem => ?_, .inr (by simp)⟩
      rcases List.mem_append.1 hmem with hmem | hmem
      · exact hsign.2 ((List.dropWhile_sublist _).subset hmem)
      · exact not_mem_sign_of_blanks hblanks (List.mem_of_ne_of_mem (by decide) hmem)
    · exact ih hsign.2 (List.cons_ne_nil c before)

theorem trimAscii_append (hcore : IsCore core) (hafter : ∀ x ∈ after, Text.isAsciiBlank x = true)
    (behind : List Char) :
    trimAscii (behind ++ (core ++ after)) = behind.dropWhile Text.isAsciiBlank ++ core := by
  obtain ⟨c, rest, rfl⟩ := List.exists_cons_of_ne_nil hcore.ne_nil
  have hblank : Text.isAsciiBlank c = false := hcore.isAsciiBlank List.mem_cons_self
  have hstart := dropWhile_append_cons hblank behind (rest ++ after)
  generalize behind.dropWhile Text.isAsciiBlank = inner at hstart
  have hreverse : (inner ++ c :: (rest ++ after)).reverse =
      after.reverse ++ ((c :: rest).reverse ++ inner.reverse) := by simp
  have hlast : ∀ x ∈ ((c :: rest).reverse ++ inner.reverse).head?, Text.isAsciiBlank x = false := by
    apply forall_head?_append
    · simp
    · intro x hx
      exact hcore.isAsciiBlank (List.mem_reverse.1 hx)
  unfold trimAscii Text.dropTailWhile
  rw [List.cons_append, hstart, hreverse,
    Text.dropWhile_append_of_head (fun x hx => hafter x (List.mem_reverse.1 hx)) hlast]
  simp

theorem IsFront.exists_entry? (hfront : IsFront front) : ∃ found inner, IsInner inner ∧
    ∀ core after, IsCore core → (∀ x ∈ after, Text.isAsciiBlank x = true) →
      entry? (front ++ (core ++ after)) = some (found, inner ++ core) := by
  obtain @⟨key, blanks, hsign, ⟨c, rest, hstart, -⟩, hne, hblanks⟩ := hfront
  have hsign' : '#' ∉ c :: rest := by
    intro hmem
    rw [← hstart] at hmem
    exact hsign ((List.dropWhile_sublist _).subset hmem)
  rw [List.mem_cons, not_or] at hsign'
  obtain ⟨found, behind, hcut, hne', hinner⟩ :=
    exists_cutKey? hsign'.2 (List.cons_ne_nil c []) hne hblanks
  refine ⟨found, _, hinner, fun core after hcore hafter => ?_⟩
  have hdrop : (key ++ ':' :: blanks ++ (core ++ after)).dropWhile Text.isAsciiBlank =
      c :: (rest ++ ':' :: blanks ++ (core ++ after)) := by
    rw [List.append_assoc, List.cons_append, dropWhile_append_cons rfl, hstart]
    simp
  unfold entry?
  rw [hdrop, cutKey?, if_neg (Ne.symm hsign'.1), if_neg (by simp), cutKey?_append_tail hcut hne',
    Option.map_some]
  dsimp only
  rw [trimAscii_append hcore hafter]

theorem withoutComment_of_not_mem (h : '#' ∉ cs) : withoutComment cs = cs := by
  induction cs with
  | nil => rfl
  | cons c cs ih =>
    rw [List.mem_cons, not_or] at h
    have hhead : cs.head? ≠ some '#' := fun hhead => h.2 (List.mem_of_mem_head? hhead)
    rw [withoutComment, if_neg (by simp [hhead]), ih h.2]

/-- A value with a decimal opens a block just if it starts with an opening bracket or brace, which
nothing closes. -/
theorem opensBlock_append (hinner : IsInner inner) (hcore : IsCore core) :
    opensBlock (inner ++ core) =
      decide (inner.head? = some '[' ∨ inner.head? = some '\x7b') := by
  have hsign : '#' ∉ inner ++ core := by
    rw [List.mem_append, not_or]
    exact ⟨hinner.sign, fun hmem => hcore.ne hmem rfl (by decide) (by decide) rfl⟩
  have hlast : ∀ x ∈ (inner ++ core).getLast?, x ∈ core := by
    intro x hx
    rw [← List.head?_reverse, List.reverse_append] at hx
    refine forall_head?_append ?_ ?_ x hx
    · simpa using hcore.ne_nil
    · intro y hy
      exact List.mem_reverse.1 hy
  have htrim : Text.trimEnd (inner ++ core) = inner ++ core :=
    Text.trimEnd_eq_self_iff.2 fun x hx => hcore.isBlank (hlast x hx)
  have hclose : ∀ c : Char, c.isDigit = false → c ≠ ',' → c ≠ '"' →
      (inner ++ core).getLast? ≠ some c := fun c hdigit hcomma hquote hc =>
    hcore.ne (hlast c hc) hdigit hcomma hquote rfl
  have hbracket := hclose ']' rfl (by decide) (by decide)
  have hbrace := hclose '\x7d' rfl (by decide) (by decide)
  cases inner with
  | nil =>
    rw [List.nil_append, opensBlock_eq_false_of_head]
    · rfl
    · intro c hc
      have hne : ∀ d : Char, d.isDigit = false → d ≠ ',' → d ≠ '"' → c ≠ d :=
        fun d => hcore.ne (List.mem_of_mem_head? hc)
      refine ⟨hne _ ?_ ?_ ?_, hne _ ?_ ?_ ?_, hne _ ?_ ?_ ?_, hne _ ?_ ?_ ?_⟩ <;> decide
  | cons c inner =>
    unfold opensBlock
    rw [withoutComment_of_not_mem hsign]
    dsimp only
    rw [htrim]
    rw [List.cons_append] at hbracket hbrace ⊢
    dsimp only
    split
    next hscalar =>
      have hne : c ≠ ':' ∧ c ≠ '[' ∧ c ≠ '\x7b' := by
        simp only [Bool.or_eq_true, decide_eq_true_eq] at hscalar
        rcases hscalar with rfl | rfl <;> decide
      have hmem : ':' ∈ inner := by
        simpa [Ne.symm hne.1] using hinner.colon
      have hall : (inner ++ core).all (fun d => d = '+' || d = '-' || d.isDigit) = false := by
        rw [List.all_eq_false]
        exact ⟨':', List.mem_append_left _ hmem, by decide⟩
      rw [hall]
      simp [hne.2]
    next => simp [hbracket, hbrace]

end

/-! ## The pass over a line with a decimal -/

section

variable {state : PassState}

/-- The state behind an entry with a decimal is known from the front of its line, and so is that
it records no path. -/
theorem IsFront.exists_passLine (hfront : IsFront front)
    (hcovers : state.covers (indentation front) = false)
    (hitem : isItem (Text.trimStart front) = false) :
    ∃ next, ∀ core after following, IsCore core → (∀ x ∈ after, Text.isAsciiBlank x = true) →
      passLine state (front ++ (core ++ after)) following =
        (next, ⟨(quotedDecimal? (front ++ (core ++ after))).getD (front ++ (core ++ after)), none,
          (quotedDecimal? (front ++ (core ++ after))).isSome⟩) := by
  obtain ⟨key, inner, hinner, hentry⟩ := hfront.exists_entry?
  let left := state.leave (indentation front)
  refine ⟨⟨(indentation front, some (unquoted key)) :: left.enclosing,
    if inner.head? = some '[' ∨ inner.head? = some '\x7b' then some (indentation front)
    else left.block⟩, fun core after following hcore hafter => ?_⟩
  have hvalue : (if (inner ++ core).head? = some '#' then [] else inner ++ core) =
      inner ++ core := by
    refine if_neg fun hsign => ?_
    rcases List.mem_append.1 (List.mem_of_mem_head? hsign) with hmem | hmem
    · exact hinner.sign hmem
    · exact hcore.ne hmem rfl (by decide) (by decide) rfl
  have hempty : (inner ++ core).isEmpty = false := by simp [hcore.ne_nil]
  rw [passLine, if_neg (by simp [hfront.isSkipped_append, hfront.indentation_append, hcovers])]
  simp only [hfront.isItem_append, hfront.indentation_append, hitem, hentry core after hcore hafter,
    Bool.false_eq_true, if_false, afterEntry, hvalue, recordedKey?, hempty, Bool.false_and,
    opensBlock_append hinner hcore, decide_eq_true_eq]
  rfl

/-- The pass puts the decimal of an entry in quotes. A line with the decimal in quotes stays as it
is, and the state behind it is the same. -/
theorem passLine_of_quotesDecimal (h : QuotesDecimal line fixed)
    (hcovers : state.covers (indentation line) = false)
    (hitem : isItem (Text.trimStart line) = false) : ∃ next, ∀ following,
      passLine state line following = (next, ⟨fixed, none, true⟩) ∧
        passLine state fixed following = (next, .unchanged fixed) := by
  have hquoted := quotedDecimal?_eq_some_iff.2 h
  have hnone := quotedDecimal?_of_quotesDecimal h
  obtain ⟨hfront, hdecimal, hafter⟩ := h
  rw [hfront.indentation_append] at hcovers
  rw [hfront.isItem_append] at hitem
  obtain ⟨next, hpass⟩ := hfront.exists_passLine hcovers hitem
  refine ⟨next, fun following => ⟨?_, ?_⟩⟩
  · rw [hpass _ _ _ (isCore_of_isDecimal hdecimal) hafter, hquoted]
    rfl
  · have hfixed := hpass _ [] following (isCore_quoted hdecimal) (by simp)
    rw [List.append_nil, hnone] at hfixed
    exact hfixed

end

end RamlDoc.Fixup
