import RamlDoc.Proofs.ScalarsAdvance
import RamlDoc.Proofs.ScalarsAligned

/-!
# Block scalars in aligned texts

A block scalar is the same in aligned texts, unless one of its lines ends with a decimal that the
second text has in quotes.
-/

namespace RamlDoc.Yaml.Block

open Cursor

variable {p : Phase} {c c' d d' : Cursor} {fuel fuel' indent deepest : Nat} {breaks : List Char}
  {literal : Bool} {content : Content}

/-! ## The header -/

theorem chomping?_eq (h : Paired p c c') : chomping? c = chomping? c' := by
  unfold chomping?
  rw [h.sees_eq (by decide : isBreak '+' = false) fun _ => by decide,
    h.sees_eq (by decide : isBreak '-' = false) fun _ => by decide]

theorem increment?_of_break {x : Char} {rest : List Char} (hrest : c.rest = x :: rest)
    (hx : isBreak x = true) : increment? c = .ok none := by
  have hzero : x ≠ '0' := by
    rintro rfl
    cases hx
  have hdigit : x.isDigit = false := by
    cases hdigit : x.isDigit with
    | false => rfl
    | true => rw [not_isBreak_of_isDigit hdigit] at hx; cases hx
  rw [increment?, peek?, hrest]
  simp [hzero, hdigit]

theorem increment?_eq (h : Paired p c c') (hp : p.near = true) : increment? c = increment? c' := by
  cases h.heads with
  | ends hrest hrest' => rw [increment?, increment?, peek?, peek?, hrest, hrest']
  | char hrest hrest' =>
    rw [increment?, increment?, peek?, peek?, hrest, hrest']
    rfl
  | «break» hb hb' =>
    obtain ⟨x, rest, hrest, hx⟩ := hb.head
    obtain ⟨y, rest', hrest', hy⟩ := hb'.head
    rw [increment?_of_break hrest hx, increment?_of_break hrest' hy]
  | seam hgap => rw [hgap] at hp; cases hp

theorem exists_digit_of_increment? {n : Nat} (h : increment? c = .ok (some n)) :
    ∃ x rest, c.rest = x :: rest ∧ x.isDigit = true := by
  unfold increment? at h
  split at h
  next x hx =>
    obtain ⟨rest, hrest⟩ := List.head?_eq_some_iff.1 hx
    split at h
    · cases h
    split at h
    next hdigit => exact ⟨x, rest, hrest, hdigit⟩
    · cases h
  next => cases h

/-- What two headers that are read together tell. -/
structure HeaderAligned (c c' : Cursor) (r r' : Chomping × Option Nat × Cursor) : Prop where
  chomping : r.1 = r'.1
  increment : r.2.1 = r'.2.1
  paired : ∃ q, Paired q r.2.2 r'.2.2
  together : Together c c' r.2.2 r'.2.2

theorem skip_increment (h : Paired p c c') (hp : p.near = true) {n : Nat}
    (hn : increment? c = .ok (some n)) :
    (∃ q, Paired q (c.skip 1) (c'.skip 1) ∧ q.near = true) ∧
      Together c c' (c.skip 1) (c'.skip 1) := by
  obtain ⟨x, rest, hrest, hdigit⟩ := exists_digit_of_increment? hn
  have hinner : ∀ y ∈ [x], IsInner y := by
    intro y hy
    rw [List.mem_singleton.1 hy]
    refine ⟨not_isBreak_of_isDigit hdigit, ?_⟩
    rintro rfl
    cases hdigit
  have hsplit : c.rest = [x] ++ rest := hrest
  exact (h.run hp hsplit hinner).2

theorem skip_chomping (h : Paired p c c') (hp : p.near = true) {chomping : Chomping}
    (hchomping : chomping? c = some chomping) :
    (∃ q, Paired q (c.skip 1) (c'.skip 1) ∧ q.near = true) ∧
      Together c c' (c.skip 1) (c'.skip 1) := by
  unfold chomping? at hchomping
  split at hchomping
  next hsees =>
    obtain ⟨q, hq, htogether, hpasses⟩ := h.skip_mark hsees (by decide) (by decide)
    exact ⟨⟨q, hq, hpasses.near hp (by decide)⟩, htogether⟩
  split at hchomping
  next hsees =>
    obtain ⟨q, hq, htogether, hpasses⟩ := h.skip_mark hsees (by decide) (by decide)
    exact ⟨⟨q, hq, hpasses.near hp (by decide)⟩, htogether⟩
  next => cases hchomping

/-- The signs of a block scalar are the same in both texts. -/
theorem readSigns_aligned (h : Paired p c c') (hp : p.near = true) :
    Both (fun r r' => HeaderAligned c c' r r' ∧ ∃ q, Paired q r.2.2 r'.2.2 ∧ q.near = true)
      (readSigns c) (readSigns c') := by
  unfold readSigns
  rw [← chomping?_eq h]
  cases hchomping : chomping? c with
  | some chomping =>
    obtain ⟨⟨q, hq, hnear⟩, htogether⟩ := skip_chomping h hp hchomping
    dsimp only
    rw [← increment?_eq hq hnear]
    cases hincrement : increment? (c.skip 1) with
    | error => exact .error_left _ _
    | ok increment =>
      cases increment with
      | none => exact .ok ⟨⟨rfl, rfl, ⟨q, hq⟩, htogether⟩, q, hq, hnear⟩
      | some n =>
        obtain ⟨⟨r, hr, hnear'⟩, hmoved⟩ := skip_increment hq hnear hincrement
        exact .ok ⟨⟨rfl, rfl, ⟨r, hr⟩, htogether.trans hmoved⟩, r, hr, hnear'⟩
  | none =>
    dsimp only
    rw [← increment?_eq h hp]
    cases hincrement : increment? c with
    | error => exact .error_left _ _
    | ok increment =>
      cases increment with
      | none => exact .ok ⟨⟨rfl, rfl, ⟨p, h⟩, .refl c c'⟩, p, h, hp⟩
      | some n =>
        obtain ⟨⟨q, hq, hnear⟩, htogether⟩ := skip_increment h hp hincrement
        dsimp only [bind, Except.bind, Option.isNone_some]
        rw [if_neg Bool.false_ne_true, if_neg Bool.false_ne_true, ← chomping?_eq hq]
        cases hchomping : chomping? (c.skip 1) with
        | none => exact .ok ⟨⟨rfl, rfl, ⟨q, hq⟩, htogether⟩, q, hq, hnear⟩
        | some chomping =>
          obtain ⟨⟨r, hr, hnear'⟩, hmoved⟩ := skip_chomping hq hnear hchomping
          exact .ok ⟨⟨rfl, rfl, ⟨r, hr⟩, htogether.trans hmoved⟩, r, hr, hnear'⟩

theorem readHeader_eq (c : Cursor) : readHeader c =
    readSigns (c.skip 1) >>= fun signs =>
      if (signs.2.2.skipWhile isSpace).skipComment.atLineEnd then
        .ok (signs.1, signs.2.1, (signs.2.2.skipWhile isSpace).skipComment.skipBreak)
      else .error .malformedBlockHeader := by
  unfold readHeader
  simp only [pure_eq_ok, throw_bind, ite_not_eq_true]

/-- The line that opens a block scalar, behind its indicator. -/
theorem readHeader_aligned (h : Paired p (c.skip 1) (c'.skip 1)) (hp : p.near = true) :
    Both (HeaderAligned (c.skip 1) (c'.skip 1)) (readHeader c) (readHeader c') := by
  rw [readHeader_eq, readHeader_eq]
  refine (readSigns_aligned h hp).bind ?_
  rintro ⟨chomping, increment, d⟩ ⟨chomping', increment', d'⟩ ⟨hsigns, r, hr, hnear'⟩
  obtain ⟨rfl, rfl, -, hmoved⟩ := hsigns
  dsimp only at *
  obtain ⟨-, s, hs, hmoved', -⟩ := hr.skipWhile isSpace_of_isBreak (.inr (.inl ⟨hnear', by decide⟩))
  obtain ⟨t, ht, hmoved''⟩ := hs.skipComment
  rw [ht.atLineEnd_eq]
  split
  · obtain ⟨-, u, hu, hmoved₃, -⟩ := ht.readBreak
    exact .ok ⟨rfl, rfl, ⟨u, hu⟩, ((hmoved.trans hmoved').trans hmoved'').trans hmoved₃⟩
  · exact .error_left _ _

/-! ## The lines -/

/-- What the indentations of two lines that are read together tell. -/
structure BreaksAligned (c c' : Cursor) (r r' : List Char × Nat × Cursor) : Prop where
  breaks : r.1 = r'.1
  deepest : r.2.1 = r'.2.1
  paired : ∃ q, Paired q r.2.2 r'.2.2
  together : Together c c' r.2.2 r'.2.2

theorem readBreaks_aligned (h : Paired p c c') (hf : c.rest.length < fuel)
    (hf' : c'.rest.length < fuel') :
    Both (BreaksAligned c c') (readBreaks indent fuel breaks deepest c)
      (readBreaks indent fuel' breaks deepest c') := by
  induction fuel generalizing p c c' breaks deepest fuel' with
  | zero => omega
  | succ fuel ih =>
    obtain ⟨fuel', rfl⟩ : ∃ n, fuel' = n + 1 := ⟨fuel' - 1, by omega⟩
    have hdigit : ∀ x : Char, x.isDigit = true → decide (x = ' ') = false := by
      intro x hx
      refine decide_eq_false ?_
      rintro rfl
      cases hx
    obtain ⟨hspaces, -⟩ := h.skipWhile ne_space_of_isBreak (.inr (.inr ⟨hdigit, by decide⟩))
    rw [readBreaks, readBreaks, ← hspaces, ← h.column]
    dsimp only
    generalize hcount : (if indent = 0 then (c.takeWhile fun x => decide (x = ' ')).length
      else min (c.takeWhile fun x => decide (x = ' ')).length (indent - c.column)) = count
    have hle : count ≤ (c.takeWhile fun x => decide (x = ' ')).length := by
      rw [← hcount]
      split
      · exact Nat.le_refl _
      · exact Nat.min_le_left _ _
    obtain ⟨q, hq, htogether⟩ := h.skip_of_le ne_space_of_isBreak hdigit hle
    rw [hq.column, hq.sees_eq (by decide : isBreak '\t' = false) fun _ => by decide, hq.any_isBreak]
    split
    · exact .error_left _ _
    split
    next hbreak =>
      obtain ⟨htext, r, hr, hmoved, -⟩ := hq.readBreak
      have hlength := htogether.left.length_le
      have hlength' := htogether.right.length_le
      have hshorter := length_readBreak_lt (hq.any_isBreak.trans hbreak)
      have hshorter' := length_readBreak_lt hbreak
      rw [htext]
      refine (ih hr (by omega) (by omega)).mono fun r r' h => ?_
      exact ⟨h.breaks, h.deepest, h.paired, (htogether.trans hmoved).trans h.together⟩
    next => exact .ok ⟨rfl, rfl, ⟨q, hq⟩, htogether⟩

/-- What two lines tell. -/
inductive LineOutcome (c c' : Cursor) : Prop
  | aligned (hline : nextLine c = nextLine c') {q : Phase}
    (hpaired : Paired q (c.skipWhile fun x => !isBreak x) (c'.skipWhile fun x => !isBreak x))
    (htogether : Together c c' (c.skipWhile fun x => !isBreak x)
      (c'.skipWhile fun x => !isBreak x))
  | parted {seen decimal : List Char} (hdecimal : isDecimal decimal = true)
    (hline : seen ++ decimal <+: nextLine c) (hline' : seen ++ ['"'] <+: nextLine c')
    (hsealed : c.Sealed (c.skipWhile fun x => !isBreak x))
    (hsealed' : c'.Sealed (c'.skipWhile fun x => !isBreak x))

theorem advances_line (c : Cursor) : c.Advances (c.skipWhile fun x => !isBreak x) :=
  advances_skipWhile fun x hx => by rw [hx]; rfl

theorem nextLine_cons {x : Char} {rest : List Char} (hrest : c.rest = x :: rest)
    (hx : isBreak x = false) : nextLine c = x :: nextLine (c.skip 1) ∧
      (c.skipWhile fun x => !isBreak x) = (c.skip 1).skipWhile fun x => !isBreak x := by
  unfold nextLine
  rw [takeWhile_cons hrest, skipWhile_cons hrest, hx]
  exact ⟨rfl, rfl⟩

theorem lineOutcome_of_end (h : Paired p c c') (hc : AtLineEnd c.rest) (hc' : AtLineEnd c'.rest) :
    LineOutcome c c' := by
  obtain ⟨hline, q, hpaired, htogether, -⟩ := h.skipWhile_of_not (f := fun x => !isBreak x)
    (fun x hx => by rw [hc x hx]; rfl) fun x hx => by rw [hc' x hx]; rfl
  exact .aligned hline hpaired htogether

theorem lineOutcome_of_seam (h : Seam c.rest c'.rest) : LineOutcome c c' := by
  obtain ⟨hfree, hfree'⟩ := colonFree_of_seam h
  have hsealed := hfree.sealed (advances_line c)
  have hsealed' := hfree'.sealed (advances_line c')
  generalize hcs : c.rest = cs at h
  generalize hds : c'.rest = ds at h
  cases h with
  | @mk decimal blanks cs ds hdecimal =>
    refine @LineOutcome.parted _ _ [] decimal hdecimal ?_ ?_ hsealed hsealed'
    · rw [List.nil_append, nextLine, Cursor.takeWhile, hcs, List.takeWhile_append_of_pos]
      · exact List.prefix_append _ _
      · intro x hx
        rcases digit_or_comma_of_isDecimal hdecimal hx with hx | rfl
        · rw [not_isBreak_of_isDigit hx]
          rfl
        · decide
    · rw [List.nil_append, nextLine, Cursor.takeWhile, hds]
      exact List.prefix_append ['"'] _

/-- A line is the same in both texts, or it parts at a decimal at its end. -/
theorem lineOutcome (h : Paired p c c') : LineOutcome c c' := by
  generalize hn : c.rest.length = n
  induction n generalizing p c c' with
  | zero =>
    obtain ⟨hnil, hnil'⟩ := h.rest_eq_nil (List.eq_nil_of_length_eq_zero hn)
    exact lineOutcome_of_end h (by rw [hnil]; exact nofun) (by rw [hnil']; exact nofun)
  | succ n ih =>
    cases h.heads with
    | ends hrest => rw [hrest] at hn; cases hn
    | @char x rest rest' q hrest hrest' hx hq hpaired htogether =>
      obtain ⟨hline, hskip⟩ := nextLine_cons hrest hx
      obtain ⟨hline', hskip'⟩ := nextLine_cons hrest' hx
      have hlength : (c.skip 1).rest.length = n := by
        rw [hrest, List.length_cons] at hn
        rw [skip_rest hrest]
        omega
      cases ih hpaired hlength with
      | aligned heq hrest hmoved =>
        rw [← hskip, ← hskip'] at hrest hmoved
        exact .aligned (by rw [hline, hline', heq]) hrest (htogether.trans hmoved)
      | @parted seen decimal hdecimal hseen hseen' hsealed hsealed' =>
        rw [← hskip] at hsealed
        rw [← hskip'] at hsealed'
        refine @LineOutcome.parted _ _ (x :: seen) decimal hdecimal ?_ ?_
          (hsealed.of_advances htogether.left) (hsealed'.of_advances htogether.right)
        · rw [hline]
          exact List.cons_prefix_cons.2 ⟨rfl, hseen⟩
        · rw [hline']
          exact List.cons_prefix_cons.2 ⟨rfl, hseen'⟩
    | «break» hb hb' =>
      obtain ⟨x, rest, hrest, hx⟩ := hb.head
      obtain ⟨y, rest', hrest', hy⟩ := hb'.head
      refine lineOutcome_of_end h (fun z hz => ?_) fun z hz => ?_
      · rw [hrest] at hz
        exact Option.some.inj hz ▸ hx
      · rw [hrest'] at hz
        exact Option.some.inj hz ▸ hy
    | seam _ hseam => exact lineOutcome_of_seam hseam

/-- What the lines of two block scalars tell. -/
inductive LinesOutcome (c c' : Cursor) : Content × Cursor → Content × Cursor → Prop
  | aligned {content : Content} {d d' : Cursor} {q : Phase} (hpaired : Paired q d d')
    (htogether : Together c c' d d') : LinesOutcome c c' (content, d) (content, d')
  | parted {r r' : Content × Cursor} {seen decimal : List Char}
    (hdecimal : isDecimal decimal = true) (htext : seen ++ decimal <+: r.1.before.reverse)
    (htext' : seen ++ ['"'] <+: r'.1.before.reverse) (hsealed : c.Sealed r.2)
    (hsealed' : c'.Sealed r'.2) : LinesOutcome c c' r r'

theorem length_behindLine_lt (h : c.rest.isEmpty = false) :
    (behindLine c).2.rest.length < c.rest.length := by
  have hread : (behindLine c).2.rest.length ≤ (c.skipWhile fun x => !isBreak x).rest.length :=
    (advances_readBreak _).length_le
  cases hrest : c.rest with
  | nil => rw [hrest] at h; cases h
  | cons x rest =>
    cases hx : isBreak x with
    | false =>
      rw [(nextLine_cons hrest hx).2] at hread
      have hline := (advances_line (c.skip 1)).length_le
      rw [skip_rest hrest] at hline
      rw [List.length_cons]
      omega
    | true =>
      have hskip : (c.skipWhile fun x => !isBreak x) = c := by
        rw [skipWhile_cons hrest, hx]
        rfl
      have hpeek : c.peek?.any isBreak = true := by
        rw [peek?, hrest]
        exact hx
      rw [← hrest, behindLine, hskip]
      exact length_readBreak_lt hpeek

/-- The lines of a block scalar are read together until one parts. -/
theorem readLines_aligned (h : Paired p c c') (hf : c.rest.length < fuel)
    (hf' : c'.rest.length < fuel') :
    Both (LinesOutcome c c') (readLines literal indent fuel content c)
      (readLines literal indent fuel' content c') := by
  induction fuel generalizing p c c' content fuel' with
  | zero => omega
  | succ fuel ih =>
    obtain ⟨fuel', rfl⟩ : ∃ n, fuel' = n + 1 := ⟨fuel' - 1, by omega⟩
    rw [readLines_succ, readLines_succ, ← h.column, ← h.isEmpty_eq, ← h.any_isSpace]
    split
    · exact .ok (.aligned h (.refl c c'))
    next hstop =>
      cases lineOutcome h with
      | aligned hline hpaired htogether =>
        obtain ⟨htext, q, hq, hmoved, -⟩ := hpaired.readBreak
        have hempty : c.rest.isEmpty = false := by
          cases hempty : c.rest.isEmpty with
          | false => rfl
          | true => rw [hempty, Bool.or_true] at hstop; exact absurd rfl hstop
        have hlength := length_behindLine_lt hempty
        have hlength' := length_behindLine_lt (h.isEmpty_eq.symm.trans hempty)
        refine (readBreaks_aligned hq hq.valid.length_lt_rounds
          hq.valid'.length_lt_rounds).bind fun more more' hmore => ?_
        obtain ⟨hbreaks, -, ⟨r, hr⟩, hmoved'⟩ := hmore
        have hshorter := hmoved'.left.length_le
        have hshorter' := hmoved'.right.length_le
        have hall := (htogether.trans hmoved).trans hmoved'
        unfold behindLine at *
        rw [hline, htext, hbreaks]
        refine (ih hr (by omega) (by omega)).mono fun r r' h => ?_
        cases h with
        | aligned hpaired hlast => exact .aligned hpaired (hall.trans hlast)
        | parted hdecimal htext htext' hsealed hsealed' =>
          exact .parted hdecimal htext htext' (hsealed.of_advances hall.left)
            (hsealed'.of_advances hall.right)
      | parted hdecimal hline hline' hsealed hsealed' =>
        intro r r' hr hr'
        obtain ⟨more, hmore, hr⟩ := exists_of_bind_eq_ok hr
        obtain ⟨more', hmore', hr'⟩ := exists_of_bind_eq_ok hr'
        obtain ⟨htext, hadvances⟩ := readLines_spec hr
        obtain ⟨htext', hadvances'⟩ := readLines_spec hr'
        rw [List.reverse_append, List.reverse_reverse] at htext htext'
        have hafter : ∀ {more line : List Char}, more <+: line → ∀ text : List Char,
            text ++ more <+: text ++ line := fun h text => (List.prefix_append_right_inj text).2 h
        have hseen := (hafter hline _).trans htext
        have hseen' := (hafter hline' _).trans htext'
        rw [← List.append_assoc] at hseen hseen'
        exact .parted ‹_› hseen hseen'
          (hsealed.advance (((advances_readBreak _).trans (readBreaks_advances hmore)).trans hadvances))
          (hsealed'.advance
            (((advances_readBreak _).trans (readBreaks_advances hmore')).trans hadvances'))

/-! ## The scalar -/

/-- A block scalar, behind its indicator. -/
theorem read_aligned {parent : Int} (h : Paired p (c.skip 1) (c'.skip 1)) (hp : p.near = true) :
    Both (ScannedScalar.Outcome (c.skip 1) (c'.skip 1)) (read literal parent c)
      (read literal parent c') := by
  unfold read
  refine (readHeader_aligned h hp).bind ?_
  rintro ⟨chomping, increment, d⟩ ⟨chomping', increment', d'⟩ ⟨hchomping, hincrement, ⟨q, hq⟩, hmoved⟩
  obtain rfl : chomping = chomping' := hchomping
  obtain rfl : increment = increment' := hincrement
  dsimp only at *
  refine (readBreaks_aligned hq hq.valid.length_lt_rounds hq.valid'.length_lt_rounds).bind ?_
  rintro ⟨breaks, deepest, e⟩ ⟨breaks', deepest', e'⟩ ⟨hbreaks, hdeepest, ⟨r, hr⟩, hmoved'⟩
  obtain rfl : breaks = breaks' := hbreaks
  obtain rfl : deepest = deepest' := hdeepest
  dsimp only at *
  refine (readLines_aligned hr hr.valid.length_lt_rounds hr.valid'.length_lt_rounds).bind ?_
  have hall := hmoved.trans hmoved'
  rintro ⟨content, f⟩ ⟨content', f'⟩ hlines
  cases hlines with
  | aligned hpaired hlast =>
    exact .ok (.inl ⟨rfl, rfl, ⟨_, hpaired⟩, hall.trans hlast⟩)
  | parted hdecimal htext htext' hsealed hsealed' =>
    refine .ok (.inr ⟨?_, ?_, ?_⟩)
    · exact textsApart_of_decimal hdecimal (htext.trans (List.prefix_append _ _))
        (.inr (htext'.trans (List.prefix_append _ _)))
    · exact hsealed.of_advances hall.left
    · exact hsealed'.of_advances hall.right

end RamlDoc.Yaml.Block
